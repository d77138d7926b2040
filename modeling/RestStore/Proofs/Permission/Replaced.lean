import RestStore.Proofs.Permission.Columns
import RestStore.Proofs.Permission.Derived
import RestStore.Proofs.RoundTrip.Plain
import RestStore.Proofs.Write.Parts

/-!
# Objects with their permissions replaced

An object whose permissions are written in all three stored forms, instead of its `ACL`.

* `ofMembers?_replaced` — its permissions are derived from the lists.
* `gather_replaced` — apart from the older map, its other fields give the same as before. The last
  of them may have moved to the place of the `ACL`.
* `Create.part_older`, `Update.part_older` — the older map is a field now, and passes through the
  checks of one.
-/

set_option autoImplicit false

namespace RestStore

namespace PermissionSet

variable {members : Fields Rest} {set : PermissionSet}

/-- An object with a set of permissions in their stored forms. -/
def replaced (set : PermissionSet) (members : Fields Rest) : Fields Rest :=
  Fields.insertAll (Fields.swapErase members aclKey) set.members

/-! ## Its permissions -/

theorem idsOfRest?_map (ids : List String) : idsOfRest? (ids.map .string) = some ids := by
  induction ids with
  | nil => rfl
  | cons id ids ih =>
    rw [List.map_cons, idsOfRest?, ih]
    rfl

theorem get?_replaced_list (kind : Kind) : Fields.get? (set.replaced members) kind.column =
    ((kind.ids set).map fun ids => .array (ids.map .string)).or
      (Fields.get? (Fields.swapErase members aclKey) kind.column) := by
  unfold replaced PermissionSet.members
  cases kind <;> cases hr : set.readIds <;> cases hw : set.writeIds <;>
    simp [Fields.insertAll, Fields.get?_insert_of_ne, Kind.column, Kind.ids, hr, hw, readersColumn,
      writersColumn, legacyAclColumn]

theorem get?_replaced_acl (hn : (Fields.keys members).Nodup) :
    Fields.get? (set.replaced members) aclKey = none := by
  have hkeys : aclKey ∉ Fields.keys set.members := by
    unfold PermissionSet.members
    cases set.readIds <;> cases set.writeIds <;>
      simp [aclKey, readersColumn, writersColumn, legacyAclColumn]
  rw [replaced, Fields.get?_insertAll_of_not_mem _ _ hkeys, Fields.get?_swapErase _ hn, if_pos rfl]

theorem get?_replaced_older (set : PermissionSet) (members : Fields Rest) :
    Fields.get? (set.replaced members) legacyAclColumn = some set.legacyRest := by
  unfold replaced PermissionSet.members
  exact Fields.get?_insertAll_last _ _ [] List.not_mem_nil

theorem get?_replaced_other {key : String} (h : key ∉ permissionNames) :
    Fields.get? (set.replaced members) key =
      Fields.get? (Fields.swapErase members aclKey) key := by
  refine Fields.get?_insertAll_of_not_mem _ _ fun hk => h ?_
  unfold PermissionSet.members at hk
  cases hr : set.readIds <;> cases hw : set.writeIds <;> simp_all [permissionNames]

/-- An object whose permissions are replaced has no `ACL` to erase. -/
theorem swapErase_replaced (hn : (Fields.keys members).Nodup) :
    Fields.swapErase (set.replaced members) aclKey = set.replaced members :=
  Fields.swapErase_of_not_mem ((Fields.get?_eq_none_iff _ _).1 (get?_replaced_acl hn))

theorem get?_of_idList {key : String} (h : idList members key = .ok none) :
    Fields.get? members key = none := by
  unfold idList at h
  split at h
  · assumption
  · split at h <;> cases h
  · cases h

/-- An object without permissions has no `ACL`. -/
theorem get?_acl_of_none (h : ofMembers? members = .ok none) :
    Fields.get? members aclKey = none := by
  unfold ofMembers? at h
  split at h
  · obtain ⟨_, _, he⟩ := Outcome.map_eq_ok.1 h
    cases he
  · cases h
  · assumption

/-- Both lists of an `ACL` are declared. Otherwise a list is declared when it is there, and one of
them is. -/
theorem ofMembers?_cases (h : ofMembers? members = .ok (some set)) :
    (∀ kind : Kind, kind.declared set = true) ∨
      (∀ kind : Kind, kind.declared set = false → Fields.get? members kind.column = none) ∧
        ∃ kind : Kind, kind.declared set = true := by
  unfold ofMembers? at h
  split at h
  · obtain ⟨made, hm, he⟩ := Outcome.map_eq_ok.1 h
    cases he
    obtain ⟨grants, _, rfl⟩ := Outcome.map_eq_ok.1 hm
    exact .inl fun kind => by cases kind <;> rfl
  · cases h
  · split at h
    · cases h
    · rename_i read hread
      obtain ⟨write, hwrite, he⟩ := Outcome.map_eq_ok.1 h
      split at he
      · cases he
      · rename_i hsome
        cases he
        refine .inr ⟨fun kind hd => ?_, ?_⟩
        · cases kind with
          | read =>
            obtain rfl : read = none := by simpa [Kind.declared, ofLists] using hd
            exact get?_of_idList hread
          | write =>
            obtain rfl : write = none := by simpa [Kind.declared, ofLists] using hd
            exact get?_of_idList hwrite
        · cases hr : read with
          | some ids => exact ⟨.read, rfl⟩
          | none =>
            cases hw : write with
            | some ids => exact ⟨.write, rfl⟩
            | none =>
              rw [hr, hw] at hsome
              exact absurd rfl hsome

theorem exists_ids_of_declared {kind : Kind} (h : kind.declared set = true) :
    ∃ ids, kind.ids set = some ids := by
  rw [ids_eq, if_pos h]
  exact ⟨_, rfl⟩

/-- **The permissions of the object** are derived from the lists. -/
theorem ofMembers?_replaced (hn : (Fields.keys members).Nodup)
    (h : ofMembers? members = .ok (some set)) :
    ofMembers? (set.replaced members) = .ok (some set.derived) := by
  have hlist : ∀ kind : Kind, idList (set.replaced members) kind.column = .ok (kind.ids set) := by
    intro kind
    unfold idList
    rw [get?_replaced_list]
    cases hd : kind.declared set with
    | true =>
      obtain ⟨ids, hids⟩ := exists_ids_of_declared hd
      simp [hids, idsOfRest?_map]
    | false =>
      have hother : kind.column ≠ aclKey := by cases kind <;> decide
      have hnone : Fields.get? members kind.column = none := by
        rcases ofMembers?_cases h with hboth | ⟨hlist, -⟩
        · rw [hboth kind] at hd
          cases hd
        · exact hlist kind hd
      rw [Fields.get?_swapErase _ hn, if_neg hother, hnone, ids_eq, hd]
      rfl
  have hdeclared : ∃ kind : Kind, (kind.ids set).isNone = false := by
    obtain ⟨kind, hd⟩ : ∃ kind : Kind, kind.declared set = true :=
      (ofMembers?_cases h).elim (fun hboth => ⟨.read, hboth .read⟩) fun hlists => hlists.2
    obtain ⟨ids, hids⟩ := exists_ids_of_declared hd
    exact ⟨kind, by rw [hids]; rfl⟩
  have hread : idList (set.replaced members) readersColumn = .ok set.readIds := hlist .read
  have hwrite : idList (set.replaced members) writersColumn = .ok set.writeIds := hlist .write
  have hsome : (set.readIds.isNone && set.writeIds.isNone) = false := by
    obtain ⟨kind, hkind⟩ := hdeclared
    cases kind with
    | read => exact Bool.and_eq_false_iff.2 (.inl hkind)
    | write => exact Bool.and_eq_false_iff.2 (.inr hkind)
  unfold ofMembers?
  rw [get?_replaced_acl hn, hread, hwrite]
  simp only [Except.map, hsome]
  rfl

/-! ## Its other fields -/

theorem filter_replaced (hacl : legacyAclColumn ∉ Fields.keys members)
    (hn : (Fields.keys members).Nodup) :
    (set.replaced members).filter (fun member => !Create.isPermissionKey member.1) =
      (Fields.swapErase members aclKey).filter (fun member => !Create.isPermissionKey member.1) ++
        [(legacyAclColumn, set.legacyRest)] := by
  have hown : set.members.filter (fun member => !Create.isPermissionKey member.1) =
      [(legacyAclColumn, set.legacyRest)] := by
    unfold PermissionSet.members
    cases set.readIds <;> cases set.writeIds <;> rfl
  rw [replaced, Fields.filter_insertAll fun name => !Create.isPermissionKey name, hown]
  refine Fields.insert_of_not_mem _ _ fun hk => hacl ?_
  obtain ⟨member, hm, (he : member.1 = legacyAclColumn)⟩ := List.mem_map.1 hk
  rw [← he]
  exact List.mem_map_of_mem ((Fields.mem_swapErase_iff hn).1 (List.mem_filter.1 hm).1).1

end PermissionSet

/-- The fields behind the `ACL` of an object. -/
def behindAcl (members : Fields Rest) : Fields Rest :=
  (members.dropWhile fun member => member.1 != aclKey).tail

/-- The last field behind the `ACL` may move to its place: a field between the two gives nothing
else under a name that the last gives something under. -/
def MovesFreely {β γ : Type} (give : String × Rest → List β) (name : β → γ)
    (members : Fields Rest) : Prop :=
  ∀ member ∈ (behindAcl members).dropLast, ∀ last ∈ (behindAcl members).getLast?,
    ∀ own ∈ give member, ∀ moved ∈ give last, name own = name moved → own = moved

theorem movesFreely_of_ne {β γ : Type} {give : String × Rest → List β} {name : β → γ}
    {members : Fields Rest}
    (h : ∀ member ∈ (behindAcl members).dropLast, ∀ last ∈ (behindAcl members).getLast?,
      ∀ own ∈ give member, ∀ moved ∈ give last, name own ≠ name moved) :
    MovesFreely give name members :=
  fun member hm last hl own ho moved hmoved he =>
    absurd he (h member hm last hl own ho moved hmoved)

theorem behindAcl_append {before after : Fields Rest} (acl : Rest)
    (h : aclKey ∉ Fields.keys before) : behindAcl (before ++ (aclKey, acl) :: after) = after := by
  have hskip : ∀ member ∈ before, (member.1 != aclKey) = true := fun member hm =>
    bne_iff_ne.2 fun he => h (he ▸ List.mem_map_of_mem hm)
  rw [behindAcl, List.dropWhile_append_of_pos hskip, List.dropWhile_cons_of_neg (by simp)]
  rfl

section

variable {β γ : Type} {part : String × Rest → Except Failure (List β)} {members : Fields Rest}
  {set : PermissionSet}

/-- Without the `ACL`, what the last field gives may stand before what others give. -/
theorem exists_moved (name : β → γ)
    (hpart : ∀ member, Create.isPermissionKey member.1 = true → part member = .ok [])
    (hn : (Fields.keys members).Nodup) :
    ∃ before between moved, (MovesFreely (partOf part) name members →
        ∀ own ∈ between, ∀ last ∈ moved, name own = name last → own = last) ∧
      members.flatMap (partOf part) = before ++ (between ++ moved) ∧
      (Fields.swapErase members aclKey).flatMap (partOf part) = before ++ (moved ++ between) := by
  by_cases hk : aclKey ∈ Fields.keys members
  · obtain ⟨before, acl, after, rfl, hbefore, -⟩ := Fields.exists_split hn hk
    have hnone : partOf part (aclKey, acl) = [] := partOf_of_ok (hpart _ rfl)
    rw [MovesFreely, behindAcl_append acl hbefore, Fields.swapErase_append acl after hbefore,
      List.flatMap_append, List.flatMap_cons, hnone, List.nil_append, List.flatMap_append]
    rcases List.eq_nil_or_concat' after with rfl | ⟨between, last, rfl⟩
    · exact ⟨before.flatMap (partOf part), [], [], by simp, by simp, by simp⟩
    · rw [List.dropLast_concat, List.getLast?_concat]
      refine ⟨before.flatMap (partOf part), between.flatMap (partOf part), partOf part last,
        fun hmoves own ho moved hm => ?_, by simp, by simp⟩
      obtain ⟨member, hmember, hown⟩ := List.mem_flatMap.1 ho
      exact hmoves member hmember last rfl own hown moved hm
  · rw [Fields.swapErase_of_not_mem hk]
    exact ⟨members.flatMap (partOf part), [], [], by simp, by simp, by simp⟩

/-- The fields of the object are those from before, without the permissions, and the older map. -/
theorem mem_replaced_iff (hn : (Fields.keys members).Nodup)
    (hacl : legacyAclColumn ∉ Fields.keys members) {member : String × Rest}
    (hkey : Create.isPermissionKey member.1 = false) :
    member ∈ set.replaced members ↔
      member ∈ members ∨ member = (legacyAclColumn, set.legacyRest) := by
  have hne : member.1 ≠ aclKey := fun he => by
    rw [he] at hkey
    cases hkey
  calc member ∈ set.replaced members
    _ ↔ member ∈ (set.replaced members).filter fun member =>
          !Create.isPermissionKey member.1 := by rw [List.mem_filter, hkey]; simp
    _ ↔ member ∈ members ∨ member = (legacyAclColumn, set.legacyRest) := by
      rw [PermissionSet.filter_replaced hacl hn, List.mem_append, List.mem_filter, hkey,
        Fields.mem_swapErase_iff hn]
      simp [hne]

/-- They are accepted just when those from before are. -/
theorem parts_replaced {older : List β}
    (hpart : ∀ member, Create.isPermissionKey member.1 = true → part member = .ok [])
    (holder : part (legacyAclColumn, set.legacyRest) = .ok older)
    (hn : (Fields.keys members).Nodup) (hacl : legacyAclColumn ∉ Fields.keys members) :
    (∀ member ∈ set.replaced members, ∃ own, part member = .ok own) ↔
      ∀ member ∈ members, ∃ own, part member = .ok own := by
  constructor
  · intro h member hm
    cases hkey : Create.isPermissionKey member.1 with
    | true => exact ⟨[], hpart member hkey⟩
    | false => exact h member ((mem_replaced_iff hn hacl hkey).2 (.inl hm))
  · intro h member hm
    cases hkey : Create.isPermissionKey member.1 with
    | true => exact ⟨[], hpart member hkey⟩
    | false =>
      rcases (mem_replaced_iff hn hacl hkey).1 hm with hm | rfl
      · exact h member hm
      · exact ⟨older, holder⟩

/-- **The other fields of the object** give the same as before, except that the last may have moved,
and the older map gives something, too. -/
theorem gather_replaced {older : List β} (name : β → γ)
    (hpart : ∀ member, Create.isPermissionKey member.1 = true → part member = .ok [])
    (holder : part (legacyAclColumn, set.legacyRest) = .ok older)
    (hn : (Fields.keys members).Nodup) (hacl : legacyAclColumn ∉ Fields.keys members) :
    (∃ before between moved, (MovesFreely (partOf part) name members →
        ∀ own ∈ between, ∀ last ∈ moved, name own = name last → own = last) ∧
      gather part members = .ok (before ++ (between ++ moved)) ∧
      gather part (set.replaced members) = .ok (before ++ (moved ++ between) ++ older)) ∨
    (∃ failure, gather part members = .error failure) ∧
      ∃ failure, gather part (set.replaced members) = .error failure := by
  have hskip : ∀ member : String × Rest, (!Create.isPermissionKey member.1) = false →
      partOf part member = [] := fun member hkey =>
    partOf_of_ok (hpart member (by simpa using hkey))
  obtain ⟨before, between, moved, hapart, hmembers, hswapped⟩ := exists_moved name hpart hn
  have hreplaced : (set.replaced members).flatMap (partOf part) =
      before ++ (moved ++ between) ++ older :=
    calc (set.replaced members).flatMap (partOf part)
      _ = ((set.replaced members).filter fun member =>
            !Create.isPermissionKey member.1).flatMap (partOf part) := (flatMap_filter hskip _).symm
      _ = before ++ (moved ++ between) ++ older := by
        rw [PermissionSet.filter_replaced hacl hn, List.flatMap_append, flatMap_filter hskip,
          hswapped, List.flatMap_singleton, partOf_of_ok holder]
  have hall := parts_replaced hpart holder hn hacl
  by_cases hok : ∀ member ∈ members, ∃ own, part member = .ok own
  · exact .inl ⟨before, between, moved, hapart, gather_eq_ok_iff.2 ⟨hok, hmembers.symm⟩,
      gather_eq_ok_iff.2 ⟨hall.2 hok, hreplaced.symm⟩⟩
  · exact .inr ⟨gather_refused hok, gather_refused fun h => hok (hall.1 h)⟩

end

end RestStore
