import RestStore.Proofs.Readability.Field

/-!
# Which objects read back

The document of an accepted object is read exactly if every stored field of the object is readable:
`created_decodes_iff`. The permissions of an object are always read.

* `columns_iff` — the columns of the fields.
* `permissionLists_ok` — the permission columns.
-/

set_option autoImplicit false

namespace RestStore

section

variable {target : Target} {members : Fields Rest}

/-! ## Columns -/

/-- **The columns of an object are read** exactly if its stored fields are readable. -/
theorem columns_iff : ∀ {members : Fields Rest} {columns : Document},
    (∀ key ∈ Fields.keys members, hasStart "_" key = false) →
      (∀ member ∈ members, member.2.height < target.config.maxDepth) →
        Create.columns target members = .ok columns →
          ((∀ column ∈ columns, ∃ placement,
              Decode.placement target column.1 column.2 = .ok placement) ↔
            ∀ member ∈ members, target.isRelation member.1 member.2 = false →
              Readable target member.1 member.2)
  | [], _, _, _, h => by
    cases h
    simp
  | (key, value) :: rest, columns, hs, hd, h => by
    have hkey : hasStart "_" key = false := hs key List.mem_cons_self
    have hdepth := hd (key, value) List.mem_cons_self
    have hrest : ∀ key ∈ Fields.keys rest, hasStart "_" key = false := fun key hk =>
      hs key (List.mem_cons_of_mem _ hk)
    have hshallow : ∀ member ∈ rest, member.2.height < target.config.maxDepth := fun member hm =>
      hd member (List.mem_cons_of_mem _ hm)
    rw [List.forall_mem_cons]
    unfold Create.columns at h
    split at h
    · rename_i hskip
      have hfirst : target.isRelation key value = false → Readable target key value := by
        intro hrel
        rw [hrel, Bool.or_false] at hskip
        obtain rfl := Create.eq_aclKey hkey hskip
        exact .of_fixed (by decide) (by decide) (by decide)
      rw [columns_iff hrest hshallow h]
      exact ⟨fun hrest => ⟨hfirst, hrest⟩, fun hall => hall.2⟩
    · rename_i hkept
      simp only [Bool.or_eq_true, not_or, Bool.not_eq_true] at hkept
      have hp : key ≠ aclKey := by
        rintro rfl
        exact absurd hkept.1 (by decide)
      split at h
      · cases h
      · rename_i own hown
        obtain ⟨later, hlater, rfl⟩ := Outcome.map_eq_ok.1 h
        rw [List.forall_mem_append, columns_iff hrest hshallow hlater]
        have hfirst := placement_iff hkey hp hdepth hown
        simp only [Option.mem_toList]
        constructor
        · rintro ⟨hread, hlaters⟩
          exact ⟨fun _ => hfirst.1 hread, hlaters⟩
        · rintro ⟨hread, hlaters⟩
          exact ⟨hfirst.2 (hread hkept.2), hlaters⟩

/-! ## Permissions -/

/-- The permission columns of an object go nowhere. -/
theorem placement_permission {columns : Document} {column : String × Native}
    (h : Create.permissionColumns members = .ok columns) (hm : column ∈ columns) :
    Decode.placement target column.1 column.2 = .ok .nowhere := by
  obtain ⟨name, native⟩ := column
  rcases Create.mem_permissionColumns h hm with rfl | ⟨rfl | rfl, _⟩ <;> rfl

theorem permissionList_ok {document : Document} {column : String}
    (h : ∀ native, (column, native) ∈ document →
      ∃ ids : List String, native = .array (ids.map .string))
    (hd : 2 ≤ target.config.maxDepth) :
    ∃ list, Decode.permissionList target document column = .ok list := by
  unfold Decode.permissionList
  cases hget : Fields.get? document column with
  | none => exact ⟨_, rfl⟩
  | some native =>
    obtain ⟨ids, rfl⟩ := h native (Fields.mem_of_get? hget)
    refine nested_ok (.array fun item hi => ?_) hd
    obtain ⟨id, _, rfl⟩ := List.mem_map.1 hi
    exact .scalar trivial

/-- **The permission lists of a new object are read.** -/
theorem permissionLists_ok {permissions columns : Document}
    (hs : ∀ key ∈ Fields.keys members, hasStart "_" key = false)
    (hd : ∀ member ∈ members, member.2.height < target.config.maxDepth)
    (hp : Create.permissionColumns members = .ok permissions)
    (hc : Create.columns target members = .ok columns) :
    ∃ lists, Decode.permissionLists target (permissions ++ columns) = .ok lists := by
  have hset : ∀ {name : String}, name = readersColumn ∨ name = writersColumn →
      ∀ native, (name, native) ∈ permissions ++ columns → (name, native) ∈ permissions := by
    intro name hname native hm
    refine (List.mem_append.1 hm).resolve_right fun hm => ?_
    have hkey : name ∈ Fields.keys columns := List.mem_map_of_mem hm
    rcases hname with rfl | rfl <;>
      exact absurd hkey (Create.not_mem_columns hs hc (by decide))
  have hids : ∀ {name : String}, name = readersColumn ∨ name = writersColumn →
      ∀ native, (name, native) ∈ permissions ++ columns →
        ∃ ids : List String, native = .array (ids.map .string) := by
    intro name hname native hm
    rcases Create.mem_permissionColumns hp (hset hname native hm) with hl | ⟨_, hids⟩
    · have hname' : name = legacyAclColumn := hl
      rcases hname with rfl | rfl <;> exact absurd hname' (by decide)
    · exact hids
  -- the lists come from an `ACL` map, and where it fits there is room for a list of ids
  have hdeep : ∀ {name : String}, name = readersColumn ∨ name = writersColumn →
      Fields.contains (permissions ++ columns) name = true → 2 ≤ target.config.maxDepth := by
    intro name hname hcontains
    obtain ⟨native, hget⟩ := Option.isSome_iff_exists.1 hcontains
    obtain ⟨acl, hacl⟩ := Create.acl_of_mem hs hp (hset hname native (Fields.mem_of_get? hget))
    exact Nat.lt_of_le_of_lt acl.height_pos (hd _ hacl)
  unfold Decode.permissionLists
  split
  · rename_i hcontains
    have hbound : 2 ≤ target.config.maxDepth := by
      rcases Bool.or_eq_true_iff.1 hcontains with hr | hw
      · exact hdeep (.inl rfl) hr
      · exact hdeep (.inr rfl) hw
    obtain ⟨readers, hr⟩ := permissionList_ok (hids (.inl rfl)) hbound
    obtain ⟨writers, hw⟩ := permissionList_ok (hids (.inr rfl)) hbound
    rw [hr]
    dsimp only
    rw [hw]
    exact ⟨_, rfl⟩
  · exact ⟨[], rfl⟩

/-! ## Whole objects -/

/-- **The document of an accepted object is read** exactly if every stored field of the object is
readable. -/
theorem created_decodes_iff {document : Document} (hn : (Fields.keys members).Nodup)
    (hs : ∀ key ∈ Fields.keys members, hasStart "_" key = false)
    (hd : ∀ member ∈ members, member.2.height < target.config.maxDepth)
    (h : Create.document target members = .ok document) :
    (∃ decoded, Decode.object target document = .ok decoded) ↔
      ∀ member ∈ members, target.isRelation member.1 member.2 = false →
        Readable target member.1 member.2 := by
  unfold Create.document at h
  split at h
  · cases h
  · rename_i permissions hp
    obtain ⟨columns, hc, rfl⟩ := Outcome.map_eq_ok.1 h
    have hdisjoint : (Fields.keys permissions ++ Fields.keys columns).Nodup := by
      refine List.nodup_append.2 ⟨Create.nodup_permissionColumns hp,
        Create.nodup_columns hn hs hc, ?_⟩
      rintro name hname _ hcolumn rfl
      obtain ⟨column, hm, rfl⟩ := List.mem_map.1 hname
      refine Create.not_mem_columns hs hc ?_ hcolumn
      rcases Create.mem_permissionColumns hp hm with he | ⟨he | he, _⟩ <;> rw [he] <;> decide
    rw [Fields.insertAll_of_nodup hdisjoint]
    obtain ⟨lists, hlists⟩ := permissionLists_ok hs hd hp hc
    unfold Decode.object
    rw [hlists]
    dsimp only
    rw [map_ok_iff, placements_ok_iff, List.forall_mem_append, columns_iff hs hd hc]
    exact ⟨fun hall => hall.2,
      fun hread => ⟨fun column hm => ⟨_, placement_permission hp hm⟩, hread⟩⟩

end

/-- The class of shops. -/
def shopTarget : Target :=
  ⟨"Shop", .ofFields [("area", ⟨.polygon, none⟩), ("owner", ⟨.pointer, some "_User"⟩)], .standard⟩

/-- A shop and its owner. -/
def ownedShop : Fields Rest :=
  [(objectIdKey, .string "s1"), ("createdAt", .string "2020-01-01"),
    ("owner", .tagged Pointer.kind [("className", .string "_User"), ("objectId", .string "u1")])]

/-- The corners of a triangle that stands on a latitude. -/
def corners (latitude : Int) : List GeoPoint :=
  [⟨.integer latitude, .integer 0⟩, ⟨.integer latitude, .integer 5⟩,
    ⟨.integer (latitude + 5), .integer 5⟩]

/-- The same corners, the first once more at the end. -/
def closedCorners (latitude : Int) : List GeoPoint :=
  corners latitude ++ [⟨.integer latitude, .integer 0⟩]

theorem closedCorners_storable {latitude : Int} (hlow : fitsInt64 latitude = true)
    (hhigh : fitsInt64 (latitude + 5) = true) :
    ∀ point ∈ closedCorners latitude, point.Storable := by
  simp only [closedCorners, corners, List.cons_append, List.nil_append, List.forall_mem_cons]
  exact ⟨⟨hlow, rfl⟩, ⟨hlow, rfl⟩, ⟨hhigh, rfl⟩, ⟨hlow, rfl⟩, List.forall_mem_nil _⟩

/-- A shop that names its owner by the id alone, and the area that it delivers to. -/
def deliveringShop : Fields Rest :=
  [("owner", .string "u1"), ("area", (Polygon.mk (corners 10)).toEnvelope)]

/-- A shop that delivers to an area beyond the pole. -/
def polarShop : Fields Rest := [("area", (Polygon.mk (corners 100)).toEnvelope)]

theorem ownedShop_readable : ∀ member ∈ ownedShop, Readable shopTarget member.1 member.2 := by
  have howner : shopTarget.schema.field? "owner" = some ⟨.pointer, some "_User"⟩ := rfl
  intro member hm
  simp only [ownedShop, List.mem_cons, List.not_mem_nil, or_false] at hm
  rcases hm with rfl | rfl | rfl
  · exact ⟨fun _ => .inl ⟨_, rfl⟩, fun ht => absurd ht (by decide), fun ho => absurd ho (by decide),
      fun ho => absurd ho (by decide)⟩
  · exact ⟨fun he => absurd he (by decide), fun _ => .inl ⟨_, rfl⟩, fun ho => absurd ho (by decide),
      fun ho => absurd ho (by decide)⟩
  · show Readable shopTarget "owner" (Pointer.toEnvelope ⟨"_User", "u1"⟩)
    exact (readable_pointer_iff (by decide) howner rfl (by decide)).2 rfl

/-- The area of a shop is readable where its corners lie on the globe. -/
theorem readable_area_iff {latitude : Int} (hlow : fitsInt64 latitude = true)
    (hhigh : fitsInt64 (latitude + 5) = true)
    (hring : (Polygon.mk (corners latitude)).ring = .ok (closedCorners latitude)) :
    Readable shopTarget "area" (Polygon.mk (corners latitude)).toEnvelope ↔
      ∀ point ∈ closedCorners latitude, point.validate = .ok () := by
  have harea : shopTarget.schema.field? "area" = some ⟨.polygon, none⟩ := rfl
  have hchecked : ¬IsUnchecked shopTarget "area" := by
    rintro (h | h | ⟨h, _⟩) <;> exact absurd h (by decide)
  exact readable_polygon_iff (by decide) hchecked harea rfl hring
    (closedCorners_storable hlow hhigh)

theorem deliveringShop_readable :
    ∀ member ∈ deliveringShop, Readable shopTarget member.1 member.2 := by
  have howner : shopTarget.schema.field? "owner" = some ⟨.pointer, some "_User"⟩ := rfl
  intro member hm
  simp only [deliveringShop, List.mem_cons, List.not_mem_nil, or_false] at hm
  rcases hm with rfl | rfl
  · exact (readable_id_iff (by decide) howner rfl (by decide)).2 (by decide)
  · refine (readable_area_iff rfl rfl rfl).2 ?_
    simp only [closedCorners, corners, List.cons_append, List.nil_append, List.forall_mem_cons]
    exact ⟨rfl, rfl, rfl, rfl, List.forall_mem_nil _⟩

theorem polarShop_unreadable :
    ¬Readable shopTarget "area" (Polygon.mk (corners 100)).toEnvelope := by
  intro hreadable
  cases (readable_area_iff rfl rfl rfl).1 hreadable _ List.mem_cons_self

theorem created_decodes_iff_shop :
    (∃ document, Create.document shopTarget ownedShop = .ok document ∧
      ∃ decoded, Decode.object shopTarget document = .ok decoded) ∧
    (∃ document, Create.document shopTarget deliveringShop = .ok document ∧
      ∃ decoded, Decode.object shopTarget document = .ok decoded) ∧
    ∃ document, Create.document shopTarget polarShop = .ok document ∧
      ¬∃ decoded, Decode.object shopTarget document = .ok decoded := by
  refine ⟨?_, ?_, ?_⟩
  · have hstored : Create.document shopTarget ownedShop = .ok
        [(idColumn, .string "s1"), ("_created_at", .date 1577836800000),
          ("_p_owner", .string "_User$u1")] := rfl
    exact ⟨_, hstored, (created_decodes_iff (by decide) (by decide) (by decide) hstored).2
      fun member hm _ => ownedShop_readable member hm⟩
  · obtain ⟨document, hstored⟩ : ∃ document,
        Create.document shopTarget deliveringShop = .ok document := ⟨_, rfl⟩
    exact ⟨_, hstored, (created_decodes_iff (by decide) (by decide) (by decide) hstored).2
      fun member hm _ => deliveringShop_readable member hm⟩
  · obtain ⟨document, hstored⟩ : ∃ document,
        Create.document shopTarget polarShop = .ok document := ⟨_, rfl⟩
    refine ⟨_, hstored, fun hdecoded => polarShop_unreadable ?_⟩
    exact (created_decodes_iff (by decide) (by decide) (by decide) hstored).1 hdecoded _
      List.mem_cons_self rfl

/-- An object that is accepted, though the document that stores it is refused. -/
structure AcceptedUnread (target : Target) (members : Fields Rest) : Prop where
  nodup : (Fields.keys members).Nodup
  not_internal : ∀ key ∈ Fields.keys members, hasStart "_" key = false
  shallow : ∀ member ∈ members, member.2.height < target.config.maxDepth
  unread : ∃ document failure, Create.document target members = .ok document ∧
    Decode.object target document = .error failure

/-- An accepted object can be lost by its id, by an instant, by a pointer to another class and by a
polygon beyond the poles. -/
theorem accepted_unread_shops :
    AcceptedUnread shopTarget [(objectIdKey, .null)] ∧
      AcceptedUnread shopTarget [("createdAt", .number (.integer 5))] ∧
      AcceptedUnread shopTarget [("owner", .tagged Pointer.kind
        [("className", .string "Team"), ("objectId", .string "t1")])] ∧
      AcceptedUnread shopTarget [("area", (Polygon.mk [⟨.integer 100, .integer 0⟩,
        ⟨.integer 100, .integer 5⟩, ⟨.integer 105, .integer 5⟩]).toEnvelope)] := by
  refine ⟨⟨by decide, by decide, by decide, _, _, rfl, rfl⟩,
    ⟨by decide, by decide, by decide, _, _, rfl, rfl⟩,
    ⟨by decide, by decide, by decide, _, _, rfl, rfl⟩,
    ⟨by decide, by decide, by decide, _, .atom (.outOfBounds .north (.ofInt 100)), rfl, rfl⟩⟩

end RestStore
