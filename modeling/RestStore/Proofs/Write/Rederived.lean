import RestStore.Proofs.Permission.OlderMap
import RestStore.Proofs.Write.SameDocuments

/-!
# Writing objects whose permissions are derived already

Creating and updating derive the stored permissions from the `ACL` of an object or from its lists.
An object that carries the derived lists and the older map is stored as the object it was made from:
`withLegacyAcl_stored`. The exceptions are in its hypotheses. The older map is checked like a field,
and without the `ACL` the last field may come to stand before others.

* `sameColumns_derived` — the permission columns of a set, and of the set derived from it.
* `created_replaced` — new objects.
* `Update.sameColumns_columnsOf`, `Update.updated_replaced` — updates, operator by operator.
-/

set_option autoImplicit false

namespace RestStore

theorem get?_setColumns_eq_none (set : PermissionSet) {column : String}
    (h : column ∉ permissionNames) : Fields.get? set.columns column = none := by
  refine (Fields.get?_eq_none_iff _ _).2 fun hk => h ?_
  obtain ⟨own, hown, rfl⟩ := List.mem_map.1 hk
  rcases Create.mem_setColumns hown with he | ⟨he | he, -⟩ <;> rw [he] <;> decide

/-- **The columns of a set and of the set derived from it.** -/
theorem sameColumns_derived {set : PermissionSet} (hw : set.WellFormed) :
    SameColumns set.columns set.derived.columns := by
  refine ⟨Create.nodup_setColumns set, Create.nodup_setColumns _, fun column => ?_⟩
  by_cases hc : column ∈ permissionNames
  · have hlist : ∀ kind : PermissionSet.Kind, Fields.get? set.columns kind.column =
        Fields.get? set.derived.columns kind.column := fun kind => by
      rw [PermissionSet.get?_columns_list, PermissionSet.get?_columns_list,
        PermissionSet.ids_derived hw]
    simp only [permissionNames, List.mem_cons, List.not_mem_nil, or_false] at hc
    rcases hc with rfl | rfl | rfl
    · have hread : Fields.get? set.columns readersColumn = _ := hlist .read
      rw [hread]
      exact sameValue_rel_refl _ _
    · have hwrite : Fields.get? set.columns writersColumn = _ := hlist .write
      rw [hwrite]
      exact sameValue_rel_refl _ _
    · rw [PermissionSet.get?_columns_acl, PermissionSet.get?_columns_acl]
      exact .some (.inr ⟨rfl, _, _, rfl, rfl, (PermissionSet.legacy_derived hw).symm⟩)
  · rw [get?_setColumns_eq_none set hc, get?_setColumns_eq_none _ hc]
    exact .none

section

variable {target : Target} {members : Fields Rest} {set : PermissionSet}

/-! ## Creating -/

theorem not_storesUnder_older {key name : String} (hkey : key ≠ legacyAclColumn)
    (h : StoresUnder key name) : name ≠ legacyAclColumn := by
  rintro rfl
  rcases h with h | h | h
  · exact absurd h (by decide)
  · exact hkey h.symm
  · have heads := congrArg String.toList h
    simp [pointerStart, legacyAclColumn] at heads

/-- No other field is stored where the older map is. -/
theorem Create.not_mem_keys_columns {columns : Document}
    (hacl : legacyAclColumn ∉ Fields.keys members)
    (h : Create.columns target members = .ok columns) : legacyAclColumn ∉ Fields.keys columns := by
  intro hk
  obtain ⟨own, hown, hname⟩ := List.mem_map.1 hk
  obtain ⟨member, hm, -, hcolumn⟩ := Create.mem_columns h hown
  have hkey : member.1 ≠ legacyAclColumn := fun he => hacl (he ▸ List.mem_map_of_mem hm)
  exact not_storesUnder_older hkey (Create.storesUnder hcolumn) hname

/-- **A new object whose permissions are derived already.** -/
theorem created_replaced (hn : (Fields.keys members).Nodup)
    (hacl : legacyAclColumn ∉ Fields.keys members)
    (hset : PermissionSet.ofMembers? members = .ok (some set))
    (hstores : StoresOlderMap target set) :
    Agrees (fun created other =>
        MovesFreely (partOf (Create.part target)) Prod.fst members → SameColumns created other)
      (Create.document target members) (Create.document target (set.replaced members)) := by
  have hw := PermissionSet.wellFormed_of_members hset
  obtain ⟨older, holder, hown⟩ := Create.part_older hw hstores
  unfold Create.document
  rw [Create.permissionColumns_of_members hset,
    Create.permissionColumns_of_members (PermissionSet.ofMembers?_replaced hn hset)]
  dsimp only
  rw [Create.columns_eq_gather, Create.columns_eq_gather]
  rcases gather_replaced Prod.fst (fun _ => Create.part_of_permission target) holder hn hacl with
    ⟨before, between, moved, hapart, hgiven, hreplaced⟩ | ⟨⟨failure, hf⟩, other, ho⟩
  · rw [hgiven, hreplaced]
    refine .accepted fun hmoves => ?_
    have hsame : SameColumns (Fields.insertAll set.columns (before ++ (between ++ moved)))
        (Fields.insertAll set.derived.columns (before ++ (moved ++ between))) :=
      sameColumns_insertAll (sameColumns_derived hw) (hapart hmoves)
    rcases hown with rfl | rfl
    · rw [List.append_nil]
      exact hsame
    · rw [Fields.insertAll_append _ (before ++ (moved ++ between))]
      refine hsame.insert_older ?_ (.refl _)
      have hfree : legacyAclColumn ∉ Fields.keys (before ++ (between ++ moved)) :=
        Create.not_mem_keys_columns hacl ((Create.columns_eq_gather target members).trans hgiven)
      rw [Fields.get?_insertAll_of_not_mem _ _ hfree, PermissionSet.get?_columns_acl]
  · rw [hf, ho]
    exact .refused failure other

/-! ## Updating -/

namespace Update

/-- The contributions of columns that are set are these columns. -/
theorem columnsOf_setColumns (operator : UpdateOperator) (columns : Document) :
    columnsOf operator (columns.map fun (column, native) => setColumn column native) =
      if operator = .set then columns else [] := by
  unfold columnsOf
  rw [List.filter_map, List.map_map]
  split
  · rename_i he
    subst he
    have hall : columns.filter ((fun entry : Contribution => decide (entry.operator = .set)) ∘
        fun (column, native) => setColumn column native) = columns :=
      List.filter_eq_self.2 fun _ _ => rfl
    rw [hall]
    exact List.map_id columns
  · rename_i hne
    rw [List.map_eq_nil_iff, List.filter_eq_nil_iff]
    exact fun _ _ he => hne (of_decide_eq_true he).symm

/-- No other field changes the column of the older map. -/
theorem not_mem_keys_columnsOf {entries : List Contribution} (operator : UpdateOperator)
    (hacl : legacyAclColumn ∉ Fields.keys members) (h : fields target members = .ok entries) :
    legacyAclColumn ∉ Fields.keys (columnsOf operator entries) := by
  intro hk
  obtain ⟨own, hown, hname⟩ := List.mem_map.1 hk
  obtain ⟨entry, hentry, rfl⟩ := List.mem_map.1 hown
  obtain ⟨member, hm, hfield⟩ := mem_fields h (List.mem_filter.1 hentry).1
  have hkey : member.1 ≠ legacyAclColumn := fun he => hacl (he ▸ List.mem_map_of_mem hm)
  rw [(column_of_field? hfield).1] at hname
  exact not_storesUnder_older hkey (storesUnder _ _ _) hname

theorem mem_operatorsOf_append {operator : UpdateOperator} {first second : List Contribution} :
    operator ∈ operatorsOf (first ++ second) ↔
      operator ∈ operatorsOf first ∨ operator ∈ operatorsOf second := by
  simp only [mem_operatorsOf, List.mem_append, or_and_right, exists_or]

/-- Permissions are set, whatever they are. -/
theorem mem_operatorsOf_setColumns {operator : UpdateOperator} (set : PermissionSet) :
    operator ∈ operatorsOf (set.columns.map fun (column, native) => setColumn column native) ↔
      operator = .set := by
  rw [mem_operatorsOf]
  constructor
  · rintro ⟨entry, hm, rfl⟩
    obtain ⟨column, -, rfl⟩ := List.mem_map.1 hm
    rfl
  · rintro rfl
    have hm := Fields.mem_of_get? (PermissionSet.get?_columns_acl set)
    exact ⟨_, List.mem_map_of_mem hm, rfl⟩

/-- The columns of an operator, the permission columns first. -/
theorem ofList_columnsOf (operator : UpdateOperator) (set : PermissionSet)
    (entries : List Contribution) :
    Fields.ofList (columnsOf operator
        ((set.columns.map fun (column, native) => setColumn column native) ++ entries)) =
      Fields.insertAll (if operator = .set then set.columns else [])
        (columnsOf operator entries) := by
  have hn : (Fields.keys (if operator = .set then set.columns else [])).Nodup := by
    split
    · exact Create.nodup_setColumns set
    · exact List.nodup_nil
  rw [columnsOf_append_list, columnsOf_setColumns, Fields.ofList, Fields.insertAll_append]
  exact congrArg (Fields.insertAll · _) (Fields.ofList_of_nodup hn)

section

variable {before between moved older : List Contribution}

/-- The older map contributes nothing but itself. -/
theorem columnsOf_older (operator : UpdateOperator)
    (hown : older = [] ∨ older = [setColumn legacyAclColumn (.document set.legacy)]) :
    columnsOf operator older = [] ∨ operator = .set ∧
      columnsOf operator older = [(legacyAclColumn, .document set.legacy)] := by
  rcases hown with rfl | rfl
  · exact .inl rfl
  · have hcolumns := columnsOf_setColumns operator [(legacyAclColumn, .document set.legacy)]
    by_cases he : operator = .set
    · rw [if_pos he] at hcolumns
      exact .inr ⟨he, hcolumns⟩
    · rw [if_neg he] at hcolumns
      exact .inl hcolumns

theorem mem_operatorsOf_older {operator : UpdateOperator}
    (hown : older = [] ∨ older = [setColumn legacyAclColumn (.document set.legacy)])
    (h : operator ∈ operatorsOf older) : operator = .set := by
  obtain ⟨entry, hm, rfl⟩ := mem_operatorsOf.1 h
  rcases hown with rfl | rfl
  · cases hm
  · rw [List.mem_singleton.1 hm]
    rfl

/-- **An operator gets the same columns**, whether the permissions are derived already or not. -/
theorem sameColumns_columnsOf (hw : set.WellFormed) (operator : UpdateOperator)
    (hown : older = [] ∨ older = [setColumn legacyAclColumn (.document set.legacy)])
    (hapart : ∀ own ∈ between, ∀ last ∈ moved,
      (own.operator, own.column) = (last.operator, last.column) → own = last)
    (hfree : legacyAclColumn ∉ Fields.keys (columnsOf operator (before ++ (between ++ moved)))) :
    SameColumns
      (Fields.ofList (columnsOf operator
        ((set.columns.map fun (column, native) => setColumn column native) ++
          (before ++ (between ++ moved)))))
      (Fields.ofList (columnsOf operator
        ((set.derived.columns.map fun (column, native) => setColumn column native) ++
          (before ++ (moved ++ between) ++ older)))) := by
  rw [ofList_columnsOf, ofList_columnsOf]
  have hbase : SameColumns (if operator = .set then set.columns else [])
      (if operator = .set then set.derived.columns else []) := by
    split
    · exact sameColumns_derived hw
    · exact .refl List.nodup_nil
  have hcolumns : ∀ own ∈ columnsOf operator between, ∀ last ∈ columnsOf operator moved,
      own.1 = last.1 → own = last := by
    intro own ho last hl he
    obtain ⟨entry, hentry, rfl⟩ := List.mem_map.1 ho
    obtain ⟨other, hother, rfl⟩ := List.mem_map.1 hl
    obtain ⟨hbetween, hoperator⟩ := List.mem_filter.1 hentry
    obtain ⟨hmoved, hoperator'⟩ := List.mem_filter.1 hother
    have hused : entry.operator = other.operator :=
      (of_decide_eq_true hoperator).trans (of_decide_eq_true hoperator').symm
    rw [hapart entry hbetween other hmoved (Prod.ext hused he)]
  have hsame : SameColumns
      (Fields.insertAll _ (columnsOf operator before ++
        (columnsOf operator between ++ columnsOf operator moved)))
      (Fields.insertAll _ (columnsOf operator before ++
        (columnsOf operator moved ++ columnsOf operator between))) :=
    sameColumns_insertAll hbase hcolumns
  simp only [columnsOf_append_list] at hfree ⊢
  rcases columnsOf_older operator hown with hnone | ⟨rfl, hone⟩
  · rw [hnone, List.append_nil]
    exact hsame
  · rw [hone, Fields.insertAll_append _ (columnsOf _ before ++ _)]
    refine hsame.insert_older ?_ (.refl _)
    rw [Fields.get?_insertAll_of_not_mem _ _ hfree, if_pos rfl, PermissionSet.get?_columns_acl]

end

/-- **An update whose permissions are derived already.** -/
theorem updated_replaced (hn : (Fields.keys members).Nodup)
    (hacl : legacyAclColumn ∉ Fields.keys members)
    (hset : PermissionSet.ofMembers? members = .ok (some set))
    (hstores : StoresOlderMap target set) :
    Agrees (fun sent other =>
        MovesFreely (partOf (part target)) (fun entry => (entry.operator, entry.column)) members →
          SameOperators sent other)
      (document target members) (document target (set.replaced members)) := by
  have hw := PermissionSet.wellFormed_of_members hset
  obtain ⟨older, holder, hown⟩ := part_older hw hstores
  unfold document contributions
  rw [Create.permissionColumns_of_members hset,
    Create.permissionColumns_of_members (PermissionSet.ofMembers?_replaced hn hset)]
  dsimp only
  rw [fields_eq_gather, fields_eq_gather]
  rcases gather_replaced (fun entry => (entry.operator, entry.column))
      (fun _ => part_of_permission target) holder hn hacl with
    ⟨before, between, moved, hapart, hgiven, hreplaced⟩ | ⟨⟨failure, hf⟩, other, ho⟩
  · rw [hgiven, hreplaced]
    refine .accepted fun hmoves => sameOperators_collect (fun operator => ?_) fun operator => ?_
    · have holder_set : operator ∈ operatorsOf older → operator = .set := mem_operatorsOf_older hown
      simp only [mem_operatorsOf_append, mem_operatorsOf_setColumns]
      grind
    · exact sameColumns_columnsOf hw operator hown (hapart hmoves)
        (not_mem_keys_columnsOf operator hacl ((fields_eq_gather target members).trans hgiven))
  · rw [hf, ho]
    exact .refused failure other

end Update

/-! ## Both paths -/

/-- **Permissions that are derived beforehand change nothing.** An object that first gets its
permissions in their stored forms is created just when it would be created without them, if its
older map passes as a field, and so is an update. What is stored is the same, if the last of its
fields moves freely where it has an `ACL`. -/
theorem withLegacyAcl_stored (hn : (Fields.keys members).Nodup)
    (hacl : legacyAclColumn ∉ Fields.keys members)
    (hstores : ∀ set, PermissionSet.ofMembers? members = .ok (some set) →
      StoresOlderMap target set) :
    Agrees (fun created other =>
        MovesFreely (partOf (Create.part target)) Prod.fst members → SameColumns created other)
      (Create.document target members) (withLegacyAcl members >>= Create.document target) ∧
    Agrees (fun sent other =>
        MovesFreely (partOf (Update.part target)) (fun entry => (entry.operator, entry.column))
          members → SameOperators sent other)
      (Update.document target members) (withLegacyAcl members >>= Update.document target) := by
  unfold withLegacyAcl
  cases hset : PermissionSet.ofMembers? members with
  | error failure =>
    have hp : Create.permissionColumns members = .error failure := by
      rw [Create.permissionColumns, hset]
      rfl
    have hcreate : Create.document target members = .error failure := by
      rw [Create.document, hp]
    have hupdate : Update.document target members = .error failure := by
      rw [Update.document, Update.contributions, hp]
      rfl
    rw [hcreate, hupdate]
    exact ⟨.refused failure failure, .refused failure failure⟩
  | ok permissions =>
    cases permissions with
    | none =>
      exact ⟨(Create.agrees_self target members).imp fun _ _ same _ => same,
        (Update.agrees_self target members).imp fun _ _ same _ => same⟩
    | some set =>
      exact ⟨created_replaced hn hacl hset (hstores set hset),
        Update.updated_replaced hn hacl hset (hstores set hset)⟩

end

/-- A class of plots, with no declared fields. -/
def bareTarget : Target := ⟨"Plot", .empty, .standard⟩

/-- A plot with an owner, fields behind its `ACL`, and an operation. -/
def ownedPlot : Fields Rest :=
  [("area", .number (.integer 7)),
    (aclKey, .object [("ann", .object [("read", .bool true), ("write", .bool true)])]),
    ("crop", .string "rye"),
    ("visits", .object [(operationKey, .string "Increment"), ("amount", .number (.integer 1))])]

theorem withLegacyAcl_stored_plot :
    Create.document bareTarget ownedPlot =
        .ok (ownedBy "ann" ++ [("area", .int32 7), ("crop", .string "rye"), ("visits", .int32 1)]) ∧
      Agrees SameColumns (Create.document bareTarget ownedPlot)
        (withLegacyAcl ownedPlot >>= Create.document bareTarget) ∧
      Agrees SameOperators (Update.document bareTarget ownedPlot)
        (withLegacyAcl ownedPlot >>= Update.document bareTarget) := by
  have hset : PermissionSet.ofMembers? ownedPlot =
      .ok (some ⟨[⟨"ann", some 0, some 0⟩], true, true⟩) := rfl
  have hstores : ∀ set, PermissionSet.ofMembers? ownedPlot = .ok (some set) →
      StoresOlderMap bareTarget set := by
    intro set h
    rw [hset] at h
    cases h
    refine .inr ⟨rfl, by decide, fun id hid => ?_⟩
    cases List.mem_singleton.1 hid
    exact ⟨by decide, by decide, by decide⟩
  have hn : (Fields.keys ownedPlot).Nodup := by decide
  have hacl : legacyAclColumn ∉ Fields.keys ownedPlot := by decide
  obtain ⟨hcreate, hupdate⟩ := withLegacyAcl_stored hn hacl hstores
  refine ⟨?_, hcreate.imp fun _ _ same => same (movesFreely_of_ne (by decide)),
    hupdate.imp fun _ _ same => same (movesFreely_of_ne (by decide))⟩
  rw [Create.document, permissionColumns_owned hset]
  rfl

/-- A plot that someone may read. -/
def readablePlot (id : String) : Fields Rest :=
  [(aclKey, .object [(id, .object [("read", .bool true)])])]

/-- The same with its permissions in their stored forms. -/
def derivedPlot (id : String) : Fields Rest :=
  [(readersColumn, .array [.string id]), (writersColumn, .array []),
    (legacyAclColumn, .object [(id, .object [("r", .bool true)])])]

/-- The permission columns of both. -/
def readableBy (id : String) : Document :=
  [(readersColumn, .array [.string id]), (writersColumn, .array []),
    (legacyAclColumn, .document [(id, .document [("r", .bool true)])])]

theorem withLegacyAcl_readable (id : String) :
    withLegacyAcl (readablePlot id) = .ok (derivedPlot id) := by
  have hset : PermissionSet.ofMembers? (readablePlot id) =
      .ok (some ⟨[⟨id, some 0, none⟩], true, true⟩) := rfl
  rw [withLegacyAcl, hset]
  simp only [Except.map, PermissionSet.members, PermissionSet.readIds, PermissionSet.writeIds,
    if_true, PermissionSet.project_single]
  rfl

theorem permissionColumns_readable {members : Fields Rest} {id : String}
    (h : PermissionSet.ofMembers? members = .ok (some ⟨[⟨id, some 0, none⟩], true, true⟩)) :
    Create.permissionColumns members = .ok (readableBy id) := by
  rw [Create.permissionColumns_of_members h]
  simp only [PermissionSet.columns, PermissionSet.readIds, PermissionSet.writeIds,
    if_true, PermissionSet.project_single]
  rfl

/-- What is stored for a plot, its permissions as they are or derived beforehand. -/
theorem document_readable (target : Target) (id : String) :
    Create.document target (readablePlot id) = .ok (readableBy id) ∧
      (withLegacyAcl (readablePlot id) >>= Create.document target) =
        (Create.columns target (derivedPlot id)).map (Fields.insertAll (readableBy id)) := by
  constructor
  · rw [Create.document, permissionColumns_readable rfl]
    rfl
  · rw [withLegacyAcl_readable]
    show Create.document target (derivedPlot id) = _
    have hset : PermissionSet.ofMembers? (derivedPlot id) =
        .ok (some ⟨[⟨id, some 0, none⟩], true, true⟩) := rfl
    rw [Create.document, permissionColumns_readable hset]

/-- A class that declares pointers under the name of the older map. -/
def linkedTarget : Target :=
  ⟨"Plot", .ofFields [(legacyAclColumn, ⟨.pointer, some "Acl"⟩)], .standard⟩

/-- A plot with two fields for its id. -/
def renamedPlot : Fields Rest :=
  [(aclKey, .object []), (objectIdKey, .string "a"), (idColumn, .string "b")]

/-- The permission columns of an object that nobody may read or write. -/
def readableByNone : Document :=
  [(readersColumn, .array []), (writersColumn, .array []), (legacyAclColumn, .document [])]

theorem project_nil (rank : PermissionEntry → Option Nat) : PermissionSet.project rank [] = [] := by
  simp [PermissionSet.project]

theorem permissionColumns_none {members : Fields Rest}
    (h : PermissionSet.ofMembers? members = .ok (some ⟨[], true, true⟩)) :
    Create.permissionColumns members = .ok readableByNone := by
  rw [Create.permissionColumns_of_members h]
  simp only [PermissionSet.columns, PermissionSet.readIds, PermissionSet.writeIds,
    if_true, project_nil]
  rfl

theorem document_renamed :
    Create.document bareTarget renamedPlot = .ok (readableByNone ++ [(idColumn, .string "b")]) ∧
      (withLegacyAcl renamedPlot >>= Create.document bareTarget) =
        .ok (readableByNone ++ [(idColumn, .string "a")]) := by
  constructor
  · rw [Create.document, permissionColumns_none rfl]
    rfl
  · have hderived : withLegacyAcl renamedPlot = .ok [(idColumn, .string "b"),
        (objectIdKey, .string "a"), (readersColumn, .array []), (writersColumn, .array []),
        (legacyAclColumn, .object [])] := by
      have hset : PermissionSet.ofMembers? renamedPlot = .ok (some ⟨[], true, true⟩) := rfl
      rw [withLegacyAcl, hset]
      simp only [Except.map, PermissionSet.members, PermissionSet.readIds, PermissionSet.writeIds,
        if_true, project_nil]
      rfl
    refine Outcome.bind_eq_ok.2 ⟨_, hderived, ?_⟩
    rw [Create.document, permissionColumns_none rfl]
    rfl

/-- Permissions that are derived beforehand are refused where an id is no plain name, are stored a
second time where their column is declared to hold pointers, and may let another field win where two
fields have one column. -/
theorem withLegacyAcl_stored_otherwise :
    (∀ id ∈ ["role:a.b", "$all", typeKey, operationKey],
      (∃ created, Create.document bareTarget (readablePlot id) = .ok created) ∧
        ∃ failure, (withLegacyAcl (readablePlot id) >>= Create.document bareTarget) =
          .error failure) ∧
    (∃ created other, Create.document linkedTarget (readablePlot "ann") = .ok created ∧
      (withLegacyAcl (readablePlot "ann") >>= Create.document linkedTarget) = .ok other ∧
        Fields.get? created "_p__acl" = none ∧
        Fields.get? other "_p__acl" = some (.document [("ann", .document [("r", .bool true)])])) ∧
    ∃ created other, Create.document bareTarget renamedPlot = .ok created ∧
      (withLegacyAcl renamedPlot >>= Create.document bareTarget) = .ok other ∧
        Fields.get? created idColumn = some (.string "b") ∧
        Fields.get? other idColumn = some (.string "a") := by
  refine ⟨fun id hid => ⟨⟨_, (document_readable bareTarget id).1⟩, ?_⟩, ?_, ?_⟩
  · rw [(document_readable bareTarget id).2]
    simp only [List.mem_cons, List.not_mem_nil, or_false] at hid
    rcases hid with rfl | rfl | rfl | rfl <;> exact ⟨_, rfl⟩
  · refine ⟨readableBy "ann", readableBy "ann" ++ [("_p__acl",
      .document [("ann", .document [("r", .bool true)])])], (document_readable _ _).1, ?_, rfl, rfl⟩
    rw [(document_readable linkedTarget "ann").2]
    rfl
  · exact ⟨_, _, document_renamed.1, document_renamed.2, rfl, rfl⟩

end RestStore
