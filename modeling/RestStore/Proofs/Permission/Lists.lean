import RestStore.Proofs.Permission.Positions

/-!
# The lists of a permission set

What two lists of ids declare, repetitions included, and what an `ACL` map declares, comes out of
the set as declared: `lists_projected`.

* `recordGrants_eq` — the entries of an `ACL` map, whose ids differ, are recorded one after the
  other; `ranked_recorded` counts them.
* `grantsOfAcl_eq_ok` — the grants that are read from a map.
* `legacy_eq` — the older map holds the ids with grants in their order.
-/

set_option autoImplicit false

namespace RestStore.PermissionSet

/-! ## Positions of a map -/

/-- The positions of a list, each with its id. -/
def numbered (start : Nat) (ids : List String) : List (Nat × String) :=
  (ids.zipIdx start).map Prod.swap

theorem numbered_cons (start : Nat) (id : String) (ids : List String) :
    numbered start (id :: ids) = (start, id) :: numbered (start + 1) ids := rfl

theorem map_snd_numbered (start : Nat) (ids : List String) :
    (numbered start ids).map Prod.snd = ids := by
  induction ids generalizing start with
  | nil => rfl
  | cons id ids ih => rw [numbered_cons, List.map_cons, ih]

theorem le_of_mem_numbered {start : Nat} {ids : List String} {own : Nat × String}
    (h : own ∈ numbered start ids) : start ≤ own.1 := by
  induction ids generalizing start with
  | nil => cases h
  | cons id ids ih =>
    rw [numbered_cons] at h
    rcases List.mem_cons.1 h with rfl | h
    · exact Nat.le_refl _
    · exact Nat.le_of_succ_le (ih h)

/-- Positions increase along a list. -/
theorem pairwise_numbered (start : Nat) (ids : List String) :
    (numbered start ids).Pairwise fun first second => first.1 < second.1 := by
  induction ids generalizing start with
  | nil => exact .nil
  | cons id ids ih =>
    rw [numbered_cons]
    exact List.pairwise_cons.2 ⟨fun own hm => le_of_mem_numbered hm, ih _⟩

/-- **What is recorded for a list comes out as the list.** -/
theorem project_of_ranked {kind : Kind} {entries : List PermissionEntry} {start : Nat}
    {ids : List String} (h : (ranked kind entries).Perm (numbered start ids)) :
    project kind.rank entries = ids := by
  rw [project_of_increasing h (pairwise_numbered start ids), map_snd_numbered]

/-- The entries of grants to different ids, with their positions. -/
def recorded : Nat → Nat → Fields AclGrant → List PermissionEntry
  | _, _, [] => []
  | reads, writes, (id, grant) :: rest =>
    ⟨id, if grant.read then some reads else none, if grant.write then some writes else none⟩ ::
      recorded (if grant.read then reads + 1 else reads)
        (if grant.write then writes + 1 else writes) rest

/-- **Grants to different ids** are recorded one after the other. -/
theorem recordGrants_eq : ∀ {grants : Fields AclGrant} (reads writes : Nat)
    {entries : List PermissionEntry}, (entries.map (·.id) ++ Fields.keys grants).Nodup →
      recordGrants reads writes grants entries = entries ++ recorded reads writes grants
  | [], _, _, entries, _ => (List.append_nil entries).symm
  | (id, grant) :: grants, reads, writes, entries, h => by
    have hnew : id ∉ entries.map (·.id) := fun hm =>
      (List.nodup_append.1 h).2.2 id hm id List.mem_cons_self rfl
    unfold recordGrants recorded
    dsimp only
    rw [adjust_of_not_mem hnew, recordGrants_eq _ _ ?_, List.append_assoc, List.singleton_append]
    rw [List.map_append, List.append_assoc]
    exact h

theorem map_held_recorded : ∀ (grants : Fields AclGrant) (reads writes : Nat),
    (recorded reads writes grants).map held = grants
  | [], _, _ => rfl
  | (id, ⟨read, write⟩) :: grants, reads, writes => by
    unfold recorded
    rw [List.map_cons, map_held_recorded grants]
    cases read <;> cases write <;> rfl

/-- **The positions of grants to different ids** count those of the kind. -/
theorem ranked_recorded (kind : Kind) : ∀ (grants : Fields AclGrant) (reads writes : Nat),
    ranked kind (recorded reads writes grants) =
      numbered (kind.pick reads writes)
        ((grants.filter fun own => kind.pick own.2.read own.2.write).map Prod.fst)
  | [], _, _ => rfl
  | (id, grant) :: grants, reads, writes => by
    have later := ranked_recorded kind grants (if grant.read then reads + 1 else reads)
      (if grant.write then writes + 1 else writes)
    unfold ranked at later ⊢
    rw [recorded, List.filterMap_cons, later]
    obtain ⟨read, write⟩ := grant
    cases kind <;> cases read <;> cases write <;> rfl

/-! ## Reading a map -/

namespace Kind

/-- The flag of an entry of an `ACL` map. -/
def flagName : Kind → String
  | read => "read"
  | write => "write"

/-- Whether an entry of an `ACL` map grants. -/
def granted (kind : Kind) (value : Rest) : Bool :=
  match value.get? kind.flagName with
  | some (.bool granted) => granted
  | _ => false

end Kind

theorem flag_eq_granted (kind : Kind) {id : String} {grant : Fields Rest} {set : Bool}
    (h : flag id kind.flagName grant = .ok set) : set = kind.granted (.object grant) := by
  have hget : Rest.get? (.object grant) kind.flagName = Fields.get? grant kind.flagName := rfl
  unfold Kind.granted
  rw [hget]
  unfold flag at h
  split at h
  · rename_i hnone
    cases h
    rw [hnone]
  · rename_i hnull
    cases h
    rw [hnull]
  · rename_i hbool
    cases h
    rw [hbool]
  · cases h

/-- What an entry of an `ACL` map grants. -/
def grantedBy (value : Rest) : AclGrant := ⟨Kind.read.granted value, Kind.write.granted value⟩

theorem grantOfRest_eq_ok {id : String} {value : Rest} {grant : AclGrant}
    (h : grantOfRest id value = .ok grant) : grant = grantedBy value := by
  unfold grantOfRest at h
  split at h
  · split at h
    · cases h
    · rename_i hread
      obtain ⟨write, hwrite, rfl⟩ := Outcome.map_eq_ok.1 h
      have hread := flag_eq_granted .read hread
      have hwrite := flag_eq_granted .write hwrite
      unfold grantedBy
      rw [← hread, ← hwrite]
  · cases h

theorem grantsOfAcl_eq_ok : ∀ {acl : Fields Rest} {grants : Fields AclGrant},
    grantsOfAcl acl = .ok grants → grants = acl.map fun own => (own.1, grantedBy own.2)
  | [], _, h => by
    cases h
    rfl
  | (id, value) :: acl, grants, h => by
    unfold grantsOfAcl at h
    split at h
    · cases h
    · rename_i hgrant
      obtain ⟨later, hlater, rfl⟩ := Outcome.map_eq_ok.1 h
      rw [List.map_cons, grantOfRest_eq_ok hgrant, grantsOfAcl_eq_ok hlater]

section

variable {acl : Fields Rest} {set : PermissionSet}

/-- **The set of an `ACL` map** with different ids. -/
theorem eq_of_ofAcl (hn : (Fields.keys acl).Nodup) (h : ofAcl acl = .ok set) :
    set = ⟨recorded 0 0 (acl.map fun own => (own.1, grantedBy own.2)), true, true⟩ := by
  obtain ⟨grants, hgrants, rfl⟩ := Outcome.map_eq_ok.1 h
  obtain rfl := grantsOfAcl_eq_ok hgrants
  have hkeys : (Fields.keys (acl.map fun own => (own.1, grantedBy own.2))).Nodup := by
    unfold Fields.keys
    rw [List.map_map]
    exact hn
  rw [recordGrants_eq 0 0 (by simpa using hkeys), List.nil_append]

theorem ids_ofAcl (hn : (Fields.keys acl).Nodup) (h : ofAcl acl = .ok set) (kind : Kind) :
    kind.ids set = some ((acl.filter fun own => kind.granted own.2).map Prod.fst) := by
  have hdeclared : kind.declared set = true := by
    rw [eq_of_ofAcl hn h]
    cases kind <;> rfl
  have hgranted : ∀ own : String × Rest,
      kind.pick (grantedBy own.2).read (grantedBy own.2).write = kind.granted own.2 := by
    cases kind <;> exact fun _ => rfl
  have hranked := ranked_recorded kind (acl.map fun own => (own.1, grantedBy own.2)) 0 0
  rw [ids_eq, if_pos hdeclared, eq_of_ofAcl hn h, project_of_ranked (.of_eq hranked),
    List.filter_map, List.map_map]
  refine congrArg (fun own => some (List.map Prod.fst own)) (List.filter_congr fun own _ => ?_)
  exact hgranted own

end

/-! ## The older map -/

/-- A grant as the older map holds it, writing first. -/
def grantColumns (grant : AclGrant) : Document :=
  (if grant.write then [("w", .bool true)] else []) ++
    (if grant.read then [("r", .bool true)] else [])

/-- The older map of the grants of ids. -/
def olderMap (grants : Fields AclGrant) : Document :=
  (grants.filter fun own => own.2.write || own.2.read).map fun own =>
    (own.1, .document (grantColumns own.2))

theorem map_grantNames (entry : PermissionEntry) :
    (grantNames entry).map (fun name => (name, Native.bool true)) =
      grantColumns (held entry).2 := by
  unfold grantNames grantColumns held
  cases entry.write <;> cases entry.read <;> rfl

theorem grantNames_isEmpty (entry : PermissionEntry) :
    (!(grantNames entry).isEmpty) = ((held entry).2.write || (held entry).2.read) := by
  unfold grantNames held
  cases entry.write <;> cases entry.read <;> rfl

/-- **The older map of a set** holds the ids with grants in their order. -/
theorem legacy_eq {set : PermissionSet} (h : (set.entries.map (·.id)).Nodup) :
    set.legacy = olderMap (set.entries.map held) := by
  have hgrants : ((set.entries.map fun entry => (entry.id, grantNames entry)).filter fun entry =>
      !entry.2.isEmpty) = (set.entries.filter fun entry =>
        (held entry).2.write || (held entry).2.read).map fun entry =>
          (entry.id, grantNames entry) := by
    rw [List.filter_map]
    refine congrArg (List.map _) (List.filter_congr fun entry _ => ?_)
    exact grantNames_isEmpty entry
  have hkeys : (Fields.keys ((set.entries.filter fun entry =>
      (held entry).2.write || (held entry).2.read).map fun entry =>
        (entry.id, grantNames entry))).Nodup := by
    unfold Fields.keys
    rw [List.map_map]
    exact (List.filter_sublist.map _).nodup h
  unfold legacy legacyGrants olderMap
  rw [hgrants, Fields.ofList_of_nodup hkeys, List.map_map, List.filter_map, List.map_map]
  refine List.map_congr_left fun entry _ => ?_
  exact congrArg (fun columns => (entry.id, Native.document columns)) (map_grantNames entry)

/-- The older map of a set of lists has no id without grants. -/
theorem legacy_ofLists (lists : Kind → Option (List String)) :
    (ofLists (lists .read) (lists .write)).legacy =
      (((lists .write).getD []).eraseDups ++
          (((lists .read).getD []).removeAll ((lists .write).getD [])).eraseDups).map fun id =>
        (id, .document
          (grantColumns ⟨id ∈ (lists .read).getD [], id ∈ (lists .write).getD []⟩)) := by
  rw [legacy_eq (wellFormed_ofLists _ _).nodup, map_held_ofLists, olderMap, List.filter_map,
    List.map_map, List.filter_eq_self.2]
  · rfl
  · intro id hm
    rw [← List.eraseDups_append, List.mem_eraseDups, List.mem_append] at hm
    simpa using hm

/-- The older map of an `ACL` map. -/
theorem legacy_ofAcl {acl : Fields Rest} {set : PermissionSet} (hn : (Fields.keys acl).Nodup)
    (h : ofAcl acl = .ok set) :
    set.legacy = olderMap (acl.map fun own => (own.1, grantedBy own.2)) := by
  rw [legacy_eq (wellFormed_ofAcl h).nodup, eq_of_ofAcl hn h, map_held_recorded]

/-- **The lists and the older map are what was declared.** From two lists, each list comes out with
the first of equal ids, and the older map has the writers in their order and then the other readers
in theirs. From an `ACL` map with different ids, all three follow the order of the map. -/
theorem lists_projected :
    (∀ read write : Option (List String),
      ((ofLists read write).entries.map (·.id)).Nodup ∧
        (ofLists read write).readIds = read.map List.eraseDups ∧
        (ofLists read write).writeIds = write.map List.eraseDups ∧
        (ofLists read write).legacy =
          ((write.getD []).eraseDups ++
              ((read.getD []).removeAll (write.getD [])).eraseDups).map fun id =>
            (id, .document (grantColumns ⟨id ∈ read.getD [], id ∈ write.getD []⟩))) ∧
      ∀ (acl : Fields Rest) (set : PermissionSet), (Fields.keys acl).Nodup → ofAcl acl = .ok set →
        set.readIds = some ((acl.filter fun own => Kind.read.granted own.2).map Prod.fst) ∧
          set.writeIds = some ((acl.filter fun own => Kind.write.granted own.2).map Prod.fst) ∧
          set.legacy = olderMap (acl.map fun own => (own.1, grantedBy own.2)) := by
  refine ⟨fun read write => ?_, fun acl set hn h => ?_⟩
  · exact ⟨(wellFormed_ofLists read write).nodup, ids_ofLists (Kind.pick read write) .read,
      ids_ofLists (Kind.pick read write) .write, legacy_ofLists (Kind.pick read write)⟩
  · exact ⟨ids_ofAcl hn h .read, ids_ofAcl hn h .write, legacy_ofAcl hn h⟩

/-- Lists with an id twice and an id in both, and a map with an id that has no grant. -/
theorem lists_projected_team :
    ((ofLists (some ["ann", "bob", "ann"]) (some ["bob", "cy"])).readIds = some ["ann", "bob"] ∧
        (ofLists (some ["ann", "bob", "ann"]) (some ["bob", "cy"])).legacy =
          [("bob", .document [("w", .bool true), ("r", .bool true)]),
            ("cy", .document [("w", .bool true)]), ("ann", .document [("r", .bool true)])]) ∧
      (Fields.keys [("ann", Rest.object []), ("*", .object [("read", .bool true)])]).Nodup ∧
      ofAcl [("ann", .object []), ("*", .object [("read", .bool true)])] =
        .ok ⟨[⟨"ann", none, none⟩, ⟨"*", some 0, none⟩], true, true⟩ ∧
      readIds ⟨[⟨"ann", none, none⟩, ⟨"*", some 0, none⟩], true, true⟩ = some ["*"] ∧
      legacy ⟨[⟨"ann", none, none⟩, ⟨"*", some 0, none⟩], true, true⟩ =
        [("*", .document [("r", .bool true)])] := by
  have hlists := lists_projected.1 (some ["ann", "bob", "ann"]) (some ["bob", "cy"])
  have hkeys : (Fields.keys
      [("ann", Rest.object []), ("*", .object [("read", .bool true)])]).Nodup := by decide
  have hmap := lists_projected.2 _ ⟨[⟨"ann", none, none⟩, ⟨"*", some 0, none⟩], true, true⟩
    hkeys rfl
  exact ⟨⟨hlists.2.1.trans rfl, hlists.2.2.2.trans rfl⟩, hkeys, rfl, hmap.1.trans rfl,
    hmap.2.2.trans rfl⟩

end RestStore.PermissionSet
