import RestStore.Proofs.Permission.Lists
import RestStore.Proofs.Permission.Replaced
import RestStore.Proofs.Rest.Alike

/-!
# Deriving permissions twice

The lists of a permission set are all that its stored forms depend on, so reading the lists as a set
again gives the same forms: `Stable`. An object whose permissions were derived has its lists where
the second derivation looks for them, and no `ACL` in front of them, so it comes out alike:
`derivation_stable`.

* `stable_of_wellFormed` — every set that lists or an `ACL` map give is stable.
* `replaced_alike` — replacing the permissions of an object again leaves it alike.
-/

set_option autoImplicit false

namespace RestStore.PermissionSet

/-! ## Sets -/

/-- The lists of a set give its stored forms again, the older map perhaps in another order. -/
structure Stable (set : PermissionSet) : Prop where
  readIds : (ofLists set.readIds set.writeIds).readIds = set.readIds
  writeIds : (ofLists set.readIds set.writeIds).writeIds = set.writeIds
  legacy : ∀ id, Fields.get? (ofLists set.readIds set.writeIds).legacy id =
    Fields.get? set.legacy id

section

variable {set : PermissionSet}

theorem nodup_legacy (set : PermissionSet) : (Fields.keys set.legacy).Nodup := by
  have hkeys : Fields.keys set.legacy = Fields.keys set.legacyGrants := by
    simp only [legacy, Fields.keys, List.map_map]
    rfl
  rw [hkeys]
  exact nodup_legacyGrants set

theorem stable_of_wellFormed (h : set.WellFormed) : set.Stable where
  readIds := ids_derived h .read
  writeIds := ids_derived h .write
  legacy := Fields.get?_perm (legacy_derived h) (nodup_legacy set)

/-- The older map of the derived set, as a REST value. -/
theorem legacyRest_derived (h : set.WellFormed) :
    Rest.Alike set.legacyRest set.derived.legacyRest := by
  refine Rest.Reordered.alike (.intro ((legacyGrants_derived h).map _)) ?_
  unfold Fields.keys
  rw [List.map_map]
  exact nodup_legacyGrants set

end

/-! ## Objects -/

section

variable {set : PermissionSet} {members : Fields Rest}

/-- **Permissions that are replaced again** stay alike. -/
theorem replaced_alike (hn : (Fields.keys members).Nodup) (hw : set.WellFormed) :
    Rest.Alike (.object (set.replaced members))
      (.object (set.derived.replaced (set.replaced members))) := by
  refine .object fun key => ?_
  have hlist : ∀ kind : Kind, Fields.get? (set.derived.replaced (set.replaced members))
      kind.column = Fields.get? (set.replaced members) kind.column := by
    intro kind
    rw [get?_replaced_list, swapErase_replaced hn, ids_derived hw, get?_replaced_list]
    cases kind.ids set <;> rfl
  by_cases hkey : key ∈ permissionNames
  · simp only [permissionNames, List.mem_cons, List.not_mem_nil, or_false] at hkey
    rcases hkey with rfl | rfl | rfl
    · exact (hlist .read).symm ▸ Rest.Alike.refl_option _
    · exact (hlist .write).symm ▸ Rest.Alike.refl_option _
    · rw [get?_replaced_older, get?_replaced_older]
      exact .some (legacyRest_derived hw)
  · have hother : Fields.get? (set.derived.replaced (set.replaced members)) key =
        Fields.get? (set.replaced members) key := by
      rw [get?_replaced_other hkey, swapErase_replaced hn]
    rw [hother]
    exact Rest.Alike.refl_option _

end

/-- **Deriving permissions is stable.** The lists of a set that was built from lists or from an
`ACL` map give the same lists and the same older map again. An object that was accepted is accepted
with its derived permissions, too, and they stay as they are, except for the order of the ids in
the older map. -/
theorem derivation_stable :
    (∀ read write : Option (List String), (ofLists read write).Stable) ∧
      (∀ (acl : Fields Rest) (set : PermissionSet), ofAcl acl = .ok set → set.Stable) ∧
      ∀ members derived : Fields Rest, (Fields.keys members).Nodup →
        withLegacyAcl members = .ok derived →
          ∃ again, withLegacyAcl derived = .ok again ∧
            Rest.Alike (.object derived) (.object again) := by
  refine ⟨fun read write => stable_of_wellFormed (wellFormed_ofLists read write),
    fun acl set h => stable_of_wellFormed (wellFormed_ofAcl h), fun members derived hn h => ?_⟩
  obtain ⟨permissions, hset, he⟩ := Outcome.map_eq_ok.1 h
  cases permissions with
  | none =>
    -- An object without permissions is left as it is, both times.
    obtain rfl : members = derived := he
    exact ⟨members, h, Rest.Alike.refl _⟩
  | some set =>
    obtain rfl : set.replaced members = derived := he
    refine ⟨set.derived.replaced (set.replaced members), ?_,
      replaced_alike hn (wellFormed_of_members hset)⟩
    rw [withLegacyAcl, ofMembers?_replaced hn hset]
    rfl

/-- The `ACL` of a draft. Its first id may do nothing, and a reader stands before the author. -/
def draftAcl : Fields Rest :=
  [("eve", .object []), ("bob", .object [("read", .bool true)]),
    ("ann", .object [("read", .bool true), ("write", .bool true)])]

/-- Its grants. -/
def draftSet : PermissionSet :=
  ⟨[⟨"eve", none, none⟩, ⟨"bob", some 0, none⟩, ⟨"ann", some 1, some 0⟩], true, true⟩

/-- The draft. -/
def draft : Fields Rest :=
  [("title", .string "plan"), ("ACL", .object draftAcl), ("pages", .number (.integer 3))]

/-- The draft with its permissions derived. -/
def derivedDraft : Fields Rest :=
  [("title", .string "plan"), ("pages", .number (.integer 3)),
    ("_rperm", .array [.string "bob", .string "ann"]), ("_wperm", .array [.string "ann"]),
    ("_acl", .object [("bob", .object [("r", .bool true)]),
      ("ann", .object [("w", .bool true), ("r", .bool true)])])]

theorem derivation_stable_draft :
    ofAcl draftAcl = .ok draftSet ∧ draftSet.Stable ∧
      (Fields.keys draft).Nodup ∧ withLegacyAcl draft = .ok derivedDraft ∧
      ∃ again, withLegacyAcl derivedDraft = .ok again ∧
        Rest.Alike (.object derivedDraft) (.object again) := by
  obtain ⟨-, hacls, hobjects⟩ := derivation_stable
  have hacl : ofAcl draftAcl = .ok draftSet := rfl
  have hkeys : (Fields.keys draftAcl).Nodup := by decide
  have hread : draftSet.readIds = some ["bob", "ann"] := ids_ofAcl hkeys hacl .read
  have hwrite : draftSet.writeIds = some ["ann"] := ids_ofAcl hkeys hacl .write
  have hn : (Fields.keys draft).Nodup := by decide
  have hderived : withLegacyAcl draft = .ok derivedDraft := by
    have hset : ofMembers? draft = .ok (some draftSet) := rfl
    rw [withLegacyAcl, hset]
    simp only [Except.map, PermissionSet.members, hread, hwrite]
    rfl
  exact ⟨hacl, hacls _ _ hacl, hn, hderived, hobjects _ _ hn hderived⟩

end RestStore.PermissionSet
