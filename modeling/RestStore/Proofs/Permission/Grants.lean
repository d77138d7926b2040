import RestStore.Permission
import RestStore.Proofs.Fields
import RestStore.Proofs.Outcome

/-!
# The grants of a permission set

A permission set has one entry for each id, and no grants of a kind that was not declared:
`WellFormed`, `wellFormed_of_members`. So its list of readers, its list of writers and the older map
say the same:

* `Kind` — reading and writing, each with its list, its column and its name in the older map.
* `mem_project_iff` — the ids of a list.
* `legacy_grants_iff` — the grants of the older map.
* `get?_columns_list`, `get?_columns_acl` — what the columns of a set hold.
-/

set_option autoImplicit false

namespace RestStore.PermissionSet

/-- What a grant allows. -/
inductive Kind where
  | read
  | write
deriving DecidableEq, Repr

namespace Kind

/-- The column of the list of ids. -/
def column : Kind → String
  | read => readersColumn
  | write => writersColumn

/-- The name of the grant in the older map. -/
def name : Kind → String
  | read => "r"
  | write => "w"

/-- The position of the grant of an entry. -/
def rank : Kind → PermissionEntry → Option Nat
  | read, entry => entry.read
  | write, entry => entry.write

/-- Whether the list was declared. -/
def declared : Kind → PermissionSet → Bool
  | read, set => set.readDeclared
  | write, set => set.writeDeclared

/-- The list, when it was declared. -/
def ids : Kind → PermissionSet → Option (List String)
  | read, set => set.readIds
  | write, set => set.writeIds

end Kind

/-- One entry for each id, and no grants of a kind that was not declared. -/
structure WellFormed (set : PermissionSet) : Prop where
  nodup : (set.entries.map (·.id)).Nodup
  declared : ∀ kind : Kind, kind.declared set = false →
    ∀ entry ∈ set.entries, kind.rank entry = none

/-! ## Building sets -/

section

variable {id : String} {change : PermissionEntry → PermissionEntry}

theorem mem_ids_adjust (hid : ∀ entry, (change entry).id = entry.id) :
    ∀ {entries : List PermissionEntry} {other : String},
      other ∈ (adjust id change entries).map (·.id) ↔ other = id ∨ other ∈ entries.map (·.id)
  | [], other => by simp [adjust, hid]
  | entry :: rest, other => by
    unfold adjust
    split
    · rename_i he
      rw [List.map_cons, List.map_cons, hid, List.mem_cons, he, or_self_left]
    · rw [List.map_cons, List.map_cons, List.mem_cons, List.mem_cons, mem_ids_adjust hid,
        or_left_comm]

theorem nodup_adjust (hid : ∀ entry, (change entry).id = entry.id) :
    ∀ {entries : List PermissionEntry}, (entries.map (·.id)).Nodup →
      ((adjust id change entries).map (·.id)).Nodup
  | [], _ => List.nodup_singleton _
  | entry :: rest, h => by
    rw [List.map_cons, List.nodup_cons] at h
    unfold adjust
    split
    · rw [List.map_cons, hid]
      exact List.nodup_cons.2 h
    · rename_i he
      rw [List.map_cons]
      refine List.nodup_cons.2 ⟨fun hm => ?_, nodup_adjust hid h.2⟩
      exact ((mem_ids_adjust hid).1 hm).elim he h.1

/-- What a change keeps is kept of all entries. -/
theorem forall_adjust {property : PermissionEntry → Prop} (hnew : property ⟨id, none, none⟩)
    (hchange : ∀ entry, property entry → property (change entry)) :
    ∀ {entries : List PermissionEntry}, (∀ entry ∈ entries, property entry) →
      ∀ entry ∈ adjust id change entries, property entry
  | [], _, entry, hm => by
    cases List.mem_singleton.1 hm
    exact hchange _ hnew
  | first :: rest, h, entry, hm => by
    unfold adjust at hm
    have hrest : ∀ entry ∈ rest, property entry := fun entry hr =>
      h entry (List.mem_cons_of_mem _ hr)
    split at hm
    · rcases List.mem_cons.1 hm with rfl | hm
      · exact hchange _ (h first List.mem_cons_self)
      · exact hrest entry hm
    · rcases List.mem_cons.1 hm with rfl | hm
      · exact h _ List.mem_cons_self
      · exact forall_adjust hnew hchange hrest entry hm

end

theorem nodup_grantList {grant : Nat → PermissionEntry → PermissionEntry}
    (hid : ∀ rank entry, (grant rank entry).id = entry.id) :
    ∀ (ids : List String) {rank : Nat} {entries : List PermissionEntry},
      (entries.map (·.id)).Nodup → ((grantList grant rank ids entries).map (·.id)).Nodup
  | [], _, _, h => h
  | _ :: ids, rank, _, h => nodup_grantList hid ids (nodup_adjust (hid rank) h)

theorem forall_grantList {grant : Nat → PermissionEntry → PermissionEntry}
    {property : PermissionEntry → Prop} (hnew : ∀ id, property ⟨id, none, none⟩)
    (hgrant : ∀ rank entry, property entry → property (grant rank entry)) :
    ∀ (ids : List String) {rank : Nat} {entries : List PermissionEntry},
      (∀ entry ∈ entries, property entry) →
        ∀ entry ∈ grantList grant rank ids entries, property entry
  | [], _, _, h => h
  | id :: ids, rank, _, h =>
    forall_grantList hnew hgrant ids (forall_adjust (hnew id) (hgrant rank) h)

theorem nodup_recordGrants : ∀ (grants : Fields AclGrant) {reads writes : Nat}
    {entries : List PermissionEntry}, (entries.map (·.id)).Nodup →
      ((recordGrants reads writes grants entries).map (·.id)).Nodup
  | [], _, _, _, h => h
  | (id, grant) :: grants, reads, writes, entries, h => by
    unfold recordGrants
    refine nodup_recordGrants grants (nodup_adjust ?_ h)
    exact fun _ => rfl

theorem wellFormed_ofLists (read write : Option (List String)) :
    (ofLists read write).WellFormed := by
  have hread : ∀ rank entry, (grantRead rank entry).id = entry.id := fun _ _ => rfl
  have hwrite : ∀ rank entry, (grantWrite rank entry).id = entry.id := fun _ _ => rfl
  have hnil : (([] : List PermissionEntry).map (·.id)).Nodup := List.nodup_nil
  refine ⟨nodup_grantList hread _ (nodup_grantList hwrite _ hnil), fun kind hd => ?_⟩
  cases kind with
  | read =>
    obtain rfl : read = none := Option.isNone_iff_eq_none.1 (Option.isSome_eq_false_iff.1 hd)
    have hkeep : ∀ rank entry, entry.read = none → (grantWrite rank entry).read = none :=
      fun _ _ h => h
    have hwriters : ∀ entry ∈ grantList grantWrite 0 (write.getD []) [], entry.read = none :=
      forall_grantList (fun _ => rfl) hkeep _ fun _ hm => nomatch hm
    exact hwriters
  | write =>
    obtain rfl : write = none := Option.isNone_iff_eq_none.1 (Option.isSome_eq_false_iff.1 hd)
    have hkeep : ∀ rank entry, entry.write = none → (grantRead rank entry).write = none :=
      fun _ _ h => h
    have hreaders : ∀ entry ∈ grantList grantRead 0 (read.getD []) [], entry.write = none :=
      forall_grantList (fun _ => rfl) hkeep _ fun _ hm => nomatch hm
    exact hreaders

theorem wellFormed_ofAcl {acl : Fields Rest} {set : PermissionSet} (h : ofAcl acl = .ok set) :
    set.WellFormed := by
  obtain ⟨grants, _, rfl⟩ := Outcome.map_eq_ok.1 h
  have hnil : (([] : List PermissionEntry).map (·.id)).Nodup := List.nodup_nil
  refine ⟨nodup_recordGrants grants hnil, fun kind hd => ?_⟩
  cases kind <;> cases hd

/-- **The permissions of an object are well-formed.** -/
theorem wellFormed_of_members {members : Fields Rest} {set : PermissionSet}
    (h : ofMembers? members = .ok (some set)) : set.WellFormed := by
  unfold ofMembers? at h
  split at h
  · obtain ⟨made, hm, he⟩ := Outcome.map_eq_ok.1 h
    cases he
    exact wellFormed_ofAcl hm
  · cases h
  · split at h
    · cases h
    · obtain ⟨write, _, he⟩ := Outcome.map_eq_ok.1 h
      split at he
      · cases he
      · cases he
        exact wellFormed_ofLists _ _

/-! ## Lists and the older map -/

section

variable {set : PermissionSet} {kind : Kind} {id : String}

/-- An id is listed when it has a grant. -/
theorem mem_project_iff {rank : PermissionEntry → Option Nat} {entries : List PermissionEntry} :
    id ∈ project rank entries ↔ ∃ entry ∈ entries, entry.id = id ∧ (rank entry).isSome = true := by
  unfold project
  simp only [List.mem_map, List.mem_mergeSort, List.mem_filterMap, Option.map_eq_some_iff]
  constructor
  · rintro ⟨_, ⟨entry, hm, position, hrank, rfl⟩, rfl⟩
    exact ⟨entry, hm, rfl, by rw [hrank]; rfl⟩
  · rintro ⟨entry, hm, rfl, hsome⟩
    obtain ⟨position, hrank⟩ := Option.isSome_iff_exists.1 hsome
    exact ⟨_, ⟨entry, hm, position, hrank, rfl⟩, rfl⟩

theorem project_single (rank : PermissionEntry → Option Nat) (entry : PermissionEntry) :
    project rank [entry] = (rank entry).toList.map fun _ => entry.id := by
  unfold project
  cases h : rank entry <;> simp [h]

theorem mem_grantNames_iff {entry : PermissionEntry} :
    kind.name ∈ grantNames entry ↔ (kind.rank entry).isSome = true := by
  unfold grantNames
  cases kind with
  | read => cases hw : entry.write <;> cases hr : entry.read <;> simp [Kind.name, Kind.rank, hr]
  | write => cases hw : entry.write <;> cases hr : entry.read <;> simp [Kind.name, Kind.rank, hw]

/-- The ids of the older map are those with grants. -/
theorem mem_legacyGrants_iff (h : set.WellFormed) {names : List String} :
    (id, names) ∈ set.legacyGrants ↔
      ∃ entry ∈ set.entries, entry.id = id ∧ grantNames entry = names ∧ names ≠ [] := by
  have hkeys : (Fields.keys ((set.entries.map fun entry => (entry.id, grantNames entry)).filter
      fun entry => !entry.2.isEmpty)).Nodup := by
    have hnodup : ((set.entries.map fun entry => (entry.id, grantNames entry)).map
        Prod.fst).Nodup := by
      rw [List.map_map]
      exact h.nodup
    exact (List.filter_sublist.map Prod.fst).nodup hnodup
  unfold legacyGrants
  rw [Fields.ofList_of_nodup hkeys, List.mem_filter, List.mem_map]
  constructor
  · rintro ⟨⟨entry, hm, he⟩, hne⟩
    cases he
    exact ⟨entry, hm, rfl, rfl, by simpa using hne⟩
  · rintro ⟨entry, hm, rfl, rfl, hne⟩
    exact ⟨⟨entry, hm, rfl⟩, by simpa using hne⟩

/-- The grants of an id in the older map. -/
theorem get?_legacy (set : PermissionSet) (id : String) :
    Fields.get? set.legacy id = (Fields.get? set.legacyGrants id).map fun names =>
      .document (names.map fun name => (name, .bool true)) := by
  unfold legacy
  induction set.legacyGrants with
  | nil => rfl
  | cons entry rest ih =>
    rw [List.map_cons, Fields.get?_cons, Fields.get?_cons, ih]
    split <;> rfl

theorem get?_names {names : List String} {name : String} :
    Fields.get? (names.map fun name => (name, Native.bool true)) name = some (.bool true) ↔
      name ∈ names := by
  induction names with
  | nil => simp
  | cons other rest ih =>
    rw [List.map_cons, Fields.get?_cons, List.mem_cons]
    split
    · rename_i he
      simp [he]
    · rename_i he
      rw [ih, or_iff_right fun hn => he hn.symm]

/-- **The older map of a set** grants to an id what its entry grants. -/
theorem legacy_grants_iff (h : set.WellFormed) :
    (∃ grants, Fields.get? set.legacy id = some (.document grants) ∧
        Fields.get? grants kind.name = some (.bool true)) ↔
      ∃ entry ∈ set.entries, entry.id = id ∧ (kind.rank entry).isSome = true := by
  constructor
  · rintro ⟨grants, hget, hname⟩
    rw [get?_legacy, Option.map_eq_some_iff] at hget
    obtain ⟨names, hnames, he⟩ := hget
    cases he
    obtain ⟨entry, hm, hid, rfl, _⟩ := (mem_legacyGrants_iff h).1 (Fields.mem_of_get? hnames)
    exact ⟨entry, hm, hid, mem_grantNames_iff.1 (get?_names.1 hname)⟩
  · rintro ⟨entry, hm, hid, hsome⟩
    have hname := mem_grantNames_iff.2 hsome
    have hheld : Fields.get? set.legacyGrants id = some (grantNames entry) :=
      Fields.get?_of_mem (Fields.nodup_ofList _)
        ((mem_legacyGrants_iff h).2 ⟨entry, hm, hid, rfl, List.ne_nil_of_mem hname⟩)
    refine ⟨_, by rw [get?_legacy, hheld]; rfl, get?_names.2 hname⟩

theorem ids_eq (kind : Kind) (set : PermissionSet) :
    kind.ids set = if kind.declared set then some (project kind.rank set.entries) else none := by
  cases kind <;> rfl

/-- **A declared list and the older map say the same.** -/
theorem mem_ids_iff (h : set.WellFormed) {ids : List String} (hids : kind.ids set = some ids) :
    id ∈ ids ↔ ∃ grants, Fields.get? set.legacy id = some (.document grants) ∧
      Fields.get? grants kind.name = some (.bool true) := by
  rw [ids_eq] at hids
  split at hids
  · cases hids
    rw [legacy_grants_iff h, mem_project_iff]
  · cases hids

/-! ## The columns of a set -/

theorem get?_columns_list (set : PermissionSet) (kind : Kind) :
    Fields.get? set.columns kind.column =
      (kind.ids set).map fun ids => .array (ids.map .string) := by
  unfold columns
  cases kind <;> cases hr : set.readIds <;> cases hw : set.writeIds <;>
    simp [Fields.get?, Kind.column, Kind.ids, hr, hw, readersColumn, writersColumn, legacyAclColumn]

theorem get?_columns_acl (set : PermissionSet) :
    Fields.get? set.columns legacyAclColumn = some (.document set.legacy) := by
  unfold columns
  cases set.readIds <;> cases set.writeIds <;>
    simp [Fields.get?, readersColumn, writersColumn, legacyAclColumn]

end

end RestStore.PermissionSet
