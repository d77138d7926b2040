import RestStore.Proofs.Permission.Replaced

/-!
# The older map as a field

An object whose permissions are replaced carries the older map as a field of its own. It passes
through the checks that every field passes, so ids that are no plain names are refused there.

* `PlainName`, `nested_legacyRest` — with plain names the map is stored as what it stands for.
* `StoresOlderMap` — when the map passes as a field of an object.
* `Create.column?_older`, `Update.value?_older` — what it is stored as, or else it is left out:
  `Create.part_older`, `Update.part_older`.
-/

set_option autoImplicit false

namespace RestStore

/-- A name that is nothing but a name inside a stored object. -/
structure PlainName (name : String) : Prop where
  clean : Native.isCleanKey name = true
  not_tag : name ≠ typeKey
  not_operation : name ≠ operationKey

namespace Native

theorem isWalked_of_plainNames {members : Fields Rest}
    (h : ∀ key ∈ Fields.keys members, PlainName key) : IsWalked members := by
  have hclean : ∀ key ∈ Fields.keys members, isCleanKey key = true := fun key hk => (h key hk).clean
  refine ⟨?_, ?_, hclean⟩
  · rw [nestedAtom?_of_shape (shape_of_clean hclean fun hk => (h _ hk).not_tag rfl)]
    rfl
  · exact Fields.contains_eq_false_iff.2 fun hk => (h _ hk).not_operation rfl

section

variable {β : Type} {guard : Nesting} {name : β → String} {value : β → Rest} {native : β → Native}

theorem nestedMembers_map : ∀ {items : List β},
    (∀ item ∈ items, nested guard (value item) = .ok (some (native item))) →
      nestedMembers guard (items.map fun item => (name item, value item)) =
        .ok (items.map fun item => (name item, native item))
  | [], _ => rfl
  | item :: rest, h => by
    obtain ⟨hitem, hrest⟩ := List.forall_mem_cons.1 h
    rw [List.map_cons, nestedMembers, hitem]
    dsimp only
    rw [nestedMembers_map hrest]
    rfl

/-- An object with plain names is stored as the document of its members. -/
theorem nested_map {levels : Nat} {items : List β} (hroom : guard.HasRoom (levels + 1))
    (hnames : ∀ item ∈ items, PlainName (name item))
    (hvalues : ∀ inner : Nesting, inner.HasRoom levels → ∀ item ∈ items,
      nested inner (value item) = .ok (some (native item))) :
    nested guard (.object (items.map fun item => (name item, value item))) =
      .ok (some (.document (items.map fun item => (name item, native item)))) := by
  obtain ⟨inner, hi, hin⟩ := hroom.enter
  refine nested_walked hi (isWalked_of_plainNames fun key hk => ?_)
    (nestedMembers_map (hvalues inner hin))
  simp only [Fields.keys, List.map_map, List.mem_map, Function.comp_apply] at hk
  obtain ⟨item, hm, rfl⟩ := hk
  exact hnames item hm

end

end Native

section

open PermissionSet (grantNames)

variable {target : Target} {set : PermissionSet}

theorem plainName_of_mem_grantNames {entry : PermissionEntry} {name : String}
    (h : name ∈ grantNames entry) : PlainName name := by
  have hname : name = "w" ∨ name = "r" := by
    unfold grantNames at h
    rcases List.mem_append.1 h with hw | hr
    · split at hw
      · exact .inl (List.mem_singleton.1 hw)
      · cases hw
    · split at hr
      · exact .inr (List.mem_singleton.1 hr)
      · cases hr
  rcases hname with rfl | rfl
  · exact ⟨by decide, by decide, by decide⟩
  · exact ⟨by decide, by decide, by decide⟩

/-- **The older map passes as a nested value**, where its ids are plain names. -/
theorem nested_legacyRest (hw : set.WellFormed) {guard : Nesting} (hroom : guard.HasRoom 3)
    (hids : ∀ id ∈ Fields.keys set.legacy, PlainName id) :
    Native.nested guard set.legacyRest = .ok (some (.document set.legacy)) := by
  refine Native.nested_map hroom (fun grant hm => ?_) fun inner hin grant hm => ?_
  · refine hids grant.1 ?_
    simp only [PermissionSet.legacy, Fields.keys, List.map_map]
    exact List.mem_map_of_mem hm
  · obtain ⟨entry, -, -, hnames, -⟩ := (PermissionSet.mem_legacyGrants_iff hw).1 hm
    refine Native.nested_map hin (fun name hn => ?_) fun inmost hinmost name hn => ?_
    · exact plainName_of_mem_grantNames (hnames ▸ hn)
    · obtain ⟨_, hi, -⟩ := hinmost.enter
      rw [Native.nested, hi]

/-- The older map of a set passes as a field of an object of a class. It is left out as a relation,
or stored under its own name. -/
def StoresOlderMap (target : Target) (set : PermissionSet) : Prop :=
  target.schema.fieldIs legacyAclColumn .relation = true ∨
    target.schema.fieldIs legacyAclColumn .pointer = false ∧ 3 ≤ target.config.maxDepth ∧
      ∀ id ∈ Fields.keys set.legacy, PlainName id

/-- The older map is a plain object, where its ids are plain names. -/
theorem legacyRest_eq (hids : ∀ id ∈ Fields.keys set.legacy, PlainName id) :
    ∃ grants : Fields Rest, set.legacyRest = .object grants ∧
      ∀ id ∈ Fields.keys grants, PlainName id := by
  refine ⟨_, rfl, fun id hk => hids id ?_⟩
  simp only [PermissionSet.legacy, Fields.keys, List.map_map] at hk ⊢
  exact hk

theorem columnAtom?_legacyRest (field : Option FieldSchema)
    (hids : ∀ id ∈ Fields.keys set.legacy, PlainName id) :
    Native.columnAtom? field set.legacyRest = .ok none := by
  obtain ⟨grants, he, hplain⟩ := legacyRest_eq hids
  unfold Native.columnAtom?
  rw [he, shape_of_clean (fun id hk => (hplain id hk).clean) fun hk => (hplain _ hk).not_tag rfl]
  rfl

theorem hasTag_legacyRest (kind : String) (hids : ∀ id ∈ Fields.keys set.legacy, PlainName id) :
    set.legacyRest.hasTag kind = false := by
  obtain ⟨grants, he, hplain⟩ := legacyRest_eq hids
  have hnone : Fields.get? grants typeKey = none :=
    (Fields.get?_eq_none_iff _ _).2 fun hk => (hplain _ hk).not_tag rfl
  rw [he, Rest.hasTag, Rest.get?, hnone]
  rfl

theorem isRelation_legacyRest (hids : ∀ id ∈ Fields.keys set.legacy, PlainName id) :
    target.isRelation legacyAclColumn set.legacyRest =
      target.schema.fieldIs legacyAclColumn .relation := by
  rw [Target.isRelation, hasTag_legacyRest _ hids, Bool.false_or]

namespace Create

/-- The column of the older map, in an object that carries it as a field. -/
theorem column?_older (hw : set.WellFormed) (hdepth : 3 ≤ target.config.maxDepth)
    (hpointer : target.schema.fieldIs legacyAclColumn .pointer = false)
    (hids : ∀ id ∈ Fields.keys set.legacy, PlainName id) :
    column? target legacyAclColumn set.legacyRest =
      .ok (some (legacyAclColumn, .document set.legacy)) := by
  have hcolumn : plainColumn target legacyAclColumn set.legacyRest = legacyAclColumn := by
    rw [plainColumn, writesPointer, hpointer, hasTag_legacyRest Pointer.kind hids]
    simp
  have hvalue : plainValue? target legacyAclColumn set.legacyRest =
      .ok (some (.document set.legacy)) := by
    rw [plainValue?, columnAtom?_legacyRest _ hids]
    exact nested_legacyRest hw (Nesting.hasRoom_top hdepth) hids
  have hown : column? target legacyAclColumn set.legacyRest =
      (plainValue? target legacyAclColumn set.legacyRest).map fun native =>
        native.map fun native =>
          (plainColumn target legacyAclColumn set.legacyRest, native) := rfl
  rw [hown, hvalue, hcolumn]
  rfl

theorem part_older (hw : set.WellFormed) (h : StoresOlderMap target set) :
    ∃ older, part target (legacyAclColumn, set.legacyRest) = .ok older ∧
      (older = [] ∨ older = [(legacyAclColumn, .document set.legacy)]) := by
  cases hrelation : target.schema.fieldIs legacyAclColumn .relation with
  | true =>
    refine ⟨[], ?_, .inl rfl⟩
    rw [part, Target.isRelation, hrelation]
    simp
  | false =>
    obtain ⟨hpointer, hdepth, hids⟩ := h.resolve_left (Bool.eq_false_iff.1 hrelation)
    have hkept : (isPermissionKey legacyAclColumn ||
        target.isRelation legacyAclColumn set.legacyRest) = false := by
      rw [isRelation_legacyRest hids, hrelation]
      rfl
    refine ⟨_, ?_, .inr rfl⟩
    unfold part
    dsimp only
    rw [hkept, if_neg Bool.false_ne_true, column?_older hw hdepth hpointer hids]
    rfl

end Create

namespace Update

/-- The older map is stored under its own name, too, where an update changes it. -/
theorem forUpdate_older (hpointer : target.schema.fieldIs legacyAclColumn .pointer = false)
    (hids : ∀ id ∈ Fields.keys set.legacy, PlainName id) :
    Column.forUpdate target.schema legacyAclColumn set.legacyRest = ⟨legacyAclColumn, .plain⟩ := by
  have hwrites : Column.writesPointer target.schema legacyAclColumn set.legacyRest = false := by
    unfold Column.writesPointer
    unfold Schema.fieldIs at hpointer
    cases hf : target.schema.field? legacyAclColumn with
    | none => rw [hasTag_legacyRest Pointer.kind hids, Bool.and_false]
    | some field =>
      rw [hf] at hpointer
      exact hpointer
  have hplain : Column.forUpdate target.schema legacyAclColumn set.legacyRest =
      if Column.writesPointer target.schema legacyAclColumn set.legacyRest then
        ⟨pointerStart ++ legacyAclColumn, .plain⟩
      else ⟨legacyAclColumn, .plain⟩ := rfl
  rw [hplain, hwrites]
  rfl

theorem value?_older (hw : set.WellFormed) (hdepth : 3 ≤ target.config.maxDepth)
    (hids : ∀ id ∈ Fields.keys set.legacy, PlainName id) :
    value? target legacyAclColumn legacyAclColumn set.legacyRest =
      .ok (some (setColumn legacyAclColumn (.document set.legacy))) := by
  have hnested : Native.nested (guard target) set.legacyRest = _ :=
    nested_legacyRest hw (Nesting.hasRoom_top hdepth) hids
  obtain ⟨grants, he, hplain⟩ := legacyRest_eq hids
  have hoperation : Fields.contains grants operationKey = false :=
    Fields.contains_eq_false_iff.2 fun hk => (hplain _ hk).not_operation rfl
  unfold value?
  rw [columnAtom?_legacyRest _ hids]
  rw [he] at hnested ⊢
  dsimp only
  unfold compound?
  dsimp only
  rw [hoperation, hnested]
  rfl

theorem part_older (hw : set.WellFormed) (h : StoresOlderMap target set) :
    ∃ older, part target (legacyAclColumn, set.legacyRest) = .ok older ∧
      (older = [] ∨ older = [setColumn legacyAclColumn (.document set.legacy)]) := by
  cases hrelation : target.schema.fieldIs legacyAclColumn .relation with
  | true =>
    refine ⟨[], ?_, .inl rfl⟩
    rw [part, Target.isRelation, hrelation]
    simp
  | false =>
    obtain ⟨hpointer, hdepth, hids⟩ := h.resolve_left (Bool.eq_false_iff.1 hrelation)
    have hkept : (legacyAclColumn == aclKey ||
        target.isRelation legacyAclColumn set.legacyRest) = false := by
      rw [isRelation_legacyRest hids, hrelation]
      rfl
    have hfield : field? target legacyAclColumn set.legacyRest =
        value? target legacyAclColumn legacyAclColumn set.legacyRest := by
      unfold field?
      rw [forUpdate_older hpointer hids]
    refine ⟨_, ?_, .inr rfl⟩
    unfold part
    dsimp only
    rw [hkept, if_neg Bool.false_ne_true, hfield, value?_older hw hdepth hids]
    rfl

end Update

end

end RestStore
