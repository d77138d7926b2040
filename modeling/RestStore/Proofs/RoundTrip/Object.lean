import RestStore.Proofs.Relations
import RestStore.Proofs.RoundTrip.Field
import RestStore.Proofs.Write.Columns

/-!
# Objects both ways

An object whose fields fit their declarations is stored, and the stored document reads back as the
object, up to the order of members, with a placeholder for every relation:
`created_object_reads_back`.

* `ConformingMember` — a declared field with a value that fits.
* `columns_readBack` — the columns of an object, and the fields they read back as.
-/

set_option autoImplicit false

namespace RestStore

/-- A declared field of a client with a value that fits its declaration. -/
structure ConformingMember (target : Target) (member : String × Rest) : Prop where
  client : ClientKey member.1
  declared : ∃ field, target.schema.field? member.1 = some field ∧
    Conforms target.config.maxDepth field member.2

/-- The members of an object that are stored with it: all but the relations. -/
def Target.storedMembers (target : Target) (members : Fields Rest) : Fields Rest :=
  members.filter fun member => !target.schema.fieldIs member.1 .relation

section

variable {target : Target}

theorem ClientKey.not_permission {key : String} (h : ClientKey key) :
    Create.isPermissionKey key = false := by
  have hs := h.not_internal
  have hspecial := h.not_special
  unfold Create.isPermissionKey
  simp only [Bool.or_eq_false_iff, beq_eq_false_iff_ne]
  refine ⟨⟨?_, ?_⟩, ?_⟩
  · rintro rfl
    exact hspecial (by decide)
  · rintro rfl
    exact absurd hs (by decide)
  · rintro rfl
    exact absurd hs (by decide)

/-- A member is either a relation or a field that reads back. -/
theorem ConformingMember.cases (hclass : target.className ≠ Decode.userClass)
    (hdepth : 0 < target.config.maxDepth) {key : String} {value : Rest}
    (h : ConformingMember target (key, value)) :
    target.schema.fieldIs key .relation = true ∧ target.isRelation key value = true ∨
      target.schema.fieldIs key .relation = false ∧ target.isRelation key value = false ∧
        FieldReadsBack target key value := by
  obtain ⟨field, hf, hc⟩ := h.declared
  by_cases hr : field.type = .relation
  · have hdeclared : target.schema.fieldIs key .relation = true := by
      rw [Schema.fieldIs_of_field? hf, hr]
      rfl
    refine .inl ⟨hdeclared, ?_⟩
    unfold Target.isRelation
    rw [hdeclared, Bool.or_true]
  · have hdeclared : target.schema.fieldIs key .relation = false := by
      rw [Schema.fieldIs_of_field? hf]
      simpa using hr
    exact .inr ⟨hdeclared, field_readsBack hclass hdepth h.client hf hr hc⟩

/-- **The columns of an object read back as its stored members.** -/
theorem columns_readBack (hclass : target.className ≠ Decode.userClass)
    (hdepth : 0 < target.config.maxDepth) : ∀ {members : Fields Rest},
      (∀ member ∈ members, ConformingMember target member) →
        ∃ (columns : Document) (decoded : Fields Rest),
          Create.columns target members = .ok columns ∧ Decode.placements target columns =
            .ok (decoded.map fun member => .field member.1 member.2) ∧
          List.Forall₂ (fun a b => a.1 = b.1 ∧ Rest.Alike a.2 b.2) decoded
            (target.storedMembers members)
  | [], _ => ⟨[], [], rfl, rfl, .nil⟩
  | (key, value) :: rest, h => by
    have hmember := h (key, value) List.mem_cons_self
    obtain ⟨columns, decoded, hc, hp, ha⟩ := columns_readBack hclass hdepth
      fun member hm => h member (List.mem_cons_of_mem _ hm)
    unfold Target.storedMembers at ha ⊢
    unfold Create.columns
    rw [hmember.client.not_permission, Bool.false_or, List.filter_cons]
    rcases hmember.cases hclass hdepth with ⟨hd, hr⟩ | ⟨hd, hr, column, native, back, hw, hb, hv, _⟩
    · rw [hr, hd]
      exact ⟨columns, decoded, hc, hp, ha⟩
    · refine ⟨(column, native) :: columns, (key, back) :: decoded, ?_, ?_, ?_⟩
      · rw [hr, hw, hc]
        rfl
      · rw [Decode.placements, hb, hp]
        rfl
      · rw [hd]
        exact .cons ⟨rfl, hv⟩ ha

theorem keys_of_forall₂ {decoded members : Fields Rest}
    (h : List.Forall₂ (fun a b => a.1 = b.1 ∧ Rest.Alike a.2 b.2) decoded members) :
    Fields.keys decoded = Fields.keys members := by
  unfold Fields.keys
  induction h with
  | nil => rfl
  | cons hab _ ih => rw [List.map_cons, List.map_cons, hab.1, ih]

theorem permissionColumns_eq_nil {members : Fields Rest}
    (hkeys : ∀ key ∈ Fields.keys members, Create.isPermissionKey key = false) :
    Create.permissionColumns members = .ok [] := by
  have hnone : ∀ key, Create.isPermissionKey key = true → Fields.get? members key = none :=
    fun _ => Fields.get?_eq_none_of_forall hkeys
  unfold Create.permissionColumns PermissionSet.ofMembers? PermissionSet.idList
  rw [hnone aclKey rfl, hnone readersColumn rfl, hnone writersColumn rfl]
  rfl

theorem permissionLists_eq_nil {document : Document}
    (hr : readersColumn ∉ Fields.keys document) (hw : writersColumn ∉ Fields.keys document) :
    Decode.permissionLists target document = .ok [] := by
  unfold Decode.permissionLists Fields.contains
  rw [(Fields.get?_eq_none_iff _ _).2 hr, (Fields.get?_eq_none_iff _ _).2 hw]
  rfl

theorem foldl_place_fields : ∀ (decoded object : Fields Rest),
    (decoded.map fun member => Decode.Placement.field member.1 member.2).foldl Decode.place object =
      Fields.insertAll object decoded
  | [], _ => rfl
  | member :: decoded, object => by
    rw [List.map_cons, List.foldl_cons, foldl_place_fields decoded, Fields.insertAll_cons]
    rfl

/-- A relation that fits its declaration is its placeholder. -/
theorem alike_placeholder {maxDepth : Nat} {field : FieldSchema} {value : Rest}
    (hr : field.type = .relation) (h : Conforms maxDepth field value) :
    Rest.Alike field.placeholder value := by
  cases h with
  | relation _ hv => exact hv.alike_tagged (by simp [typeKey])
  | null hne => exact absurd hr hne
  | string _ ht | number ht _ | bool _ ht | date _ ht _ | bytes ht _ _ | geoPoint ht _ _
  | polygon ht _ _ _ | file _ ht _ | pointer _ ht _ _ | array ht _ _ | object ht _ _ _ _ _ =>
    rw [hr] at ht
    cases ht

/-- What a name holds among the stored members, or as a placeholder, is what it holds in the object,
or a placeholder. -/
theorem stored_or_placeholder {members : Fields Rest}
    (h : ∀ member ∈ members, ConformingMember target member) {key : String} {read : Option Rest}
    (hread : Option.Rel Rest.Alike read (Fields.get? (target.storedMembers members) key)) :
    Option.Rel Rest.Alike (read.or (target.schema.placeholder? key))
      ((Fields.get? members key).or (target.schema.placeholder? key)) := by
  unfold Target.storedMembers at hread
  rw [Fields.get?_filter_key (fun name => !target.schema.fieldIs name .relation)] at hread
  cases hd : target.schema.fieldIs key .relation with
  | false =>
    rw [hd] at hread
    rw [Schema.placeholder?_eq_none hd, Option.or_none, Option.or_none]
    exact hread
  | true =>
    rw [hd] at hread
    cases hread
    obtain ⟨field, hf, hr⟩ := (Option.any_eq_true _ _).1 hd
    have hr' : field.type = .relation := by simpa using hr
    rw [Schema.placeholder?_relation hf hr', Option.none_or]
    cases hget : Fields.get? members key with
    | none => exact .some (Rest.Alike.refl field.placeholder)
    | some value =>
      obtain ⟨declared, hf', hc⟩ := (h _ (Fields.mem_of_get? hget)).declared
      cases hf.symm.trans hf'
      exact .some (alike_placeholder hr' hc)

/-- **An object that fits its schema is stored and reads back**: for every class but the one with
login data, creating and then decoding succeeds, and the decoded object holds under every name what
the object holds, up to the order of members, and a placeholder under the names of relations. -/
theorem created_object_reads_back (hclass : target.className ≠ Decode.userClass)
    (hdepth : 0 < target.config.maxDepth) {members : Fields Rest}
    (hn : (Fields.keys members).Nodup) (h : ∀ member ∈ members, ConformingMember target member) :
    ∃ document decoded, Create.document target members = .ok document ∧
      Decode.object target document = .ok decoded ∧ (Fields.keys decoded).Nodup ∧
      ∀ key, Option.Rel Rest.Alike (Fields.get? decoded key)
        ((Fields.get? members key).or (target.schema.placeholder? key)) := by
  have hclient : ∀ key ∈ Fields.keys members, ClientKey key := by
    intro key hk
    obtain ⟨member, hm, rfl⟩ := List.mem_map.1 hk
    exact (h member hm).client
  have hinternal : ∀ key ∈ Fields.keys members, hasStart "_" key = false := fun key hk =>
    (hclient key hk).not_internal
  obtain ⟨columns, decoded, hc, hp, ha⟩ := columns_readBack hclass hdepth h
  have hstored : (Fields.keys decoded).Nodup := by
    rw [keys_of_forall₂ ha]
    exact hn.sublist (List.filter_sublist.map Prod.fst)
  have hdocument : Create.document target members = .ok columns := by
    unfold Create.document
    rw [permissionColumns_eq_nil fun key hk => (hclient key hk).not_permission, hc]
    show Except.ok (Fields.ofList columns) = _
    rw [Fields.ofList_of_nodup (Create.nodup_columns hn hinternal hc)]
  have hobject : Decode.object target columns =
      .ok (target.schema.relations.foldl Decode.addRelation decoded) := by
    unfold Decode.object
    rw [permissionLists_eq_nil (Create.not_mem_columns hinternal hc (by decide))
      (Create.not_mem_columns hinternal hc (by decide)), hp]
    show Except.ok (List.foldl _ (List.foldl _ _ _) _) = _
    rw [foldl_place_fields]
    show Except.ok (List.foldl _ (Fields.ofList decoded) _) = _
    rw [Fields.ofList_of_nodup hstored]
  refine ⟨columns, _, hdocument, hobject, Decode.nodup_foldl_addRelation _ hstored, ?_⟩
  intro key
  rw [Decode.get?_foldl_addRelation, Schema.get?_relations]
  exact stored_or_placeholder h (Fields.get?_forall₂ ha key)

end

/-- Half past noon on a leap day. -/
def leapDayNoon : IsoMoment :=
  ⟨⟨2024, 2, 29⟩, 12, 30, 0, 5, by decide, by decide, by decide, by decide, by decide, by decide,
    by decide⟩

example : leapDayNoon.text = "2024-02-29T12:30:00.005Z" := by decide

/-- The class of tasks. -/
def taskTarget : Target :=
  ⟨"Task", .ofFields [("due", ⟨.date, none⟩), ("likes", ⟨.relation, some "_User"⟩),
    ("owner", ⟨.pointer, some "_User"⟩), ("steps", ⟨.array, none⟩)], .standard⟩

/-- A task with a date, an owner and a list of steps. -/
def taskMembers : Fields Rest :=
  [("due", .object [("iso", .string leapDayNoon.text), (typeKey, .string Instant.kind)]),
    ("owner", .tagged Pointer.kind [("className", .string "_User"), ("objectId", .string "u1")]),
    ("steps", .array [.string "a", .number (.integer 3), .object [("done", .bool false)]])]

theorem created_object_reads_back_task :
    ∃ document decoded, Create.document taskTarget taskMembers = .ok document ∧
      Decode.object taskTarget document = .ok decoded ∧ (Fields.keys decoded).Nodup ∧
      ∀ key, Option.Rel Rest.Alike (Fields.get? decoded key)
        ((Fields.get? taskMembers key).or (taskTarget.schema.placeholder? key)) := by
  refine created_object_reads_back (by decide) (by decide) (by decide) fun member hm => ?_
  simp only [taskMembers, List.mem_cons, List.not_mem_nil, or_false] at hm
  rcases hm with rfl | rfl | rfl
  · exact ⟨⟨by decide, by decide, by decide⟩, ⟨.date, none⟩, rfl,
      .date leapDayNoon rfl (.intro (.swap _ _ _))⟩
  · exact ⟨⟨by decide, by decide, by decide⟩, ⟨.pointer, some "_User"⟩, rfl,
      .pointer "u1" rfl (by decide) (.intro (.refl _))⟩
  · refine ⟨⟨by decide, by decide, by decide⟩, ⟨.array, none⟩, rfl, .array rfl ?_ (by decide)⟩
    intro item hi
    simp only [List.mem_cons, List.not_mem_nil, or_false] at hi
    rcases hi with rfl | rfl | rfl
    · exact .string "a"
    · exact .number (show fitsInt64 3 = true by decide)
    · refine .object (by decide) (by decide) (by decide) fun member hm => ?_
      obtain rfl := List.mem_singleton.1 hm
      exact .bool false

end RestStore
