import Mathlib.Data.List.TakeWhile
import RestStore.Proofs.Permission.Replaced

/-!
# Fields beside the permissions

Deriving the permissions of an object replaces its permission fields and leaves the values of all
others. The `ACL` is taken out of the list of fields by putting the last field into its place, so
the others are in the order of the object just when a permission field stands last behind the
`ACL`, or no other field stands between the two: `other_fields_kept`.

* `beforeAcl`, `behindAcl`, `eq_parts` — the fields before the `ACL` and behind it.
* `otherFields_eq`, `otherFields_replaced` — the other fields before and after.
* `moved_eq_iff` — when a list stays the same with its last element moved to the front.
-/

set_option autoImplicit false

namespace RestStore

/-- Whether a field holds permissions, in any of their forms. -/
def isPermissionField (key : String) : Bool := decide (key = aclKey ∨ key ∈ permissionNames)

/-- The fields that hold no permissions, in their order. -/
def otherFields (members : Fields Rest) : Fields Rest :=
  members.filter fun member => !isPermissionField member.1

/-- The fields before the `ACL` of an object; all of them without an `ACL`. -/
def beforeAcl (members : Fields Rest) : Fields Rest :=
  members.takeWhile fun member => member.1 != aclKey

/-- The other fields between the `ACL` and the last field behind it. -/
def fieldsBetween (members : Fields Rest) : Fields Rest := otherFields (behindAcl members).dropLast

/-- The last field behind the `ACL`, where it holds no permissions. -/
def lastBehind (members : Fields Rest) : Fields Rest :=
  otherFields (behindAcl members).getLast?.toList

theorem otherFields_append (first second : Fields Rest) :
    otherFields (first ++ second) = otherFields first ++ otherFields second :=
  List.filter_append first second

/-! ## Before and behind the `ACL` -/

section

variable {members : Fields Rest}

/-- An object without an `ACL`, or the fields on both sides of it. -/
theorem eq_parts (hn : (Fields.keys members).Nodup) :
    (aclKey ∉ Fields.keys members ∧ beforeAcl members = members ∧ behindAcl members = []) ∨
      ∃ acl, members = beforeAcl members ++ (aclKey, acl) :: behindAcl members ∧
        aclKey ∉ Fields.keys (beforeAcl members) := by
  have hpass : ∀ {fields : Fields Rest}, aclKey ∉ Fields.keys fields →
      ∀ member ∈ fields, (member.1 != aclKey) = true := fun hno member hm =>
    bne_iff_ne.2 fun he => hno (he ▸ List.mem_map_of_mem hm)
  by_cases hk : aclKey ∈ Fields.keys members
  · obtain ⟨before, acl, after, rfl, hbefore, -⟩ := Fields.exists_split hn hk
    have hfront : beforeAcl (before ++ (aclKey, acl) :: after) = before := by
      rw [beforeAcl, List.takeWhile_append_of_pos (hpass hbefore),
        List.takeWhile_cons_of_neg (by simp), List.append_nil]
    rw [hfront, behindAcl_append acl hbefore]
    exact .inr ⟨acl, rfl, hbefore⟩
  · refine .inl ⟨hk, List.takeWhile_eq_self_iff.2 (hpass hk), ?_⟩
    rw [behindAcl, List.dropWhile_eq_nil_iff.2 (hpass hk)]
    rfl

/-- The other fields of an object, with the last one behind its `ACL` by itself. -/
theorem otherFields_eq (hn : (Fields.keys members).Nodup) :
    otherFields members = otherFields (beforeAcl members) ++
      (fieldsBetween members ++ lastBehind members) := by
  have hlast : ∀ behind : Fields Rest, behind.dropLast ++ behind.getLast?.toList = behind := by
    intro behind
    rcases List.eq_nil_or_concat' behind with rfl | ⟨front, last, rfl⟩
    · rfl
    · rw [List.dropLast_concat, List.getLast?_concat]
      rfl
  rw [fieldsBetween, lastBehind, ← otherFields_append, hlast]
  rcases eq_parts hn with ⟨-, hbefore, hbehind⟩ | ⟨acl, hparts, -⟩
  · rw [hbefore, hbehind]
    exact (List.append_nil _).symm
  · calc otherFields members
      _ = otherFields (beforeAcl members ++ (aclKey, acl) :: behindAcl members) :=
        congrArg otherFields hparts
      _ = otherFields (beforeAcl members) ++ otherFields (behindAcl members) :=
        otherFields_append _ _

/-- The other fields without the `ACL`, which the last field has replaced. -/
theorem otherFields_swapErase (hn : (Fields.keys members).Nodup) :
    otherFields (Fields.swapErase members aclKey) = otherFields (beforeAcl members) ++
      (lastBehind members ++ fieldsBetween members) := by
  rcases eq_parts hn with ⟨hno, hbefore, hbehind⟩ | ⟨acl, hparts, hno⟩
  · rw [Fields.swapErase_of_not_mem hno, hbefore, lastBehind, fieldsBetween, hbehind]
    exact (List.append_nil _).symm
  · have hswap : Fields.swapErase members aclKey = beforeAcl members ++
        ((behindAcl members).getLast?.toList ++ (behindAcl members).dropLast) :=
      (congrArg (Fields.swapErase · aclKey) hparts).trans (Fields.swapErase_append acl _ hno)
    rw [hswap, otherFields_append, otherFields_append]
    rfl

/-- **The other fields of an object with its permissions replaced.** -/
theorem otherFields_replaced (set : PermissionSet) (hn : (Fields.keys members).Nodup) :
    otherFields (set.replaced members) = otherFields (beforeAcl members) ++
      (lastBehind members ++ fieldsBetween members) := by
  have hown : set.members.filter (fun member => !isPermissionField member.1) = [] := by
    unfold PermissionSet.members
    cases set.readIds <;> cases set.writeIds <;> rfl
  rw [← otherFields_swapErase hn]
  unfold otherFields PermissionSet.replaced
  rw [Fields.filter_insertAll fun name => !isPermissionField name, hown]
  rfl

end

/-! ## The order of the others -/

/-- A list stays the same with its last element in front only where nothing else is in it. -/
theorem moved_eq_iff {α : Type} {front last : List α} (hlast : last.length ≤ 1)
    (hapart : ∀ own ∈ last, own ∉ front) :
    last ++ front = front ++ last ↔ last = [] ∨ front = [] := by
  constructor
  · intro h
    match last, front with
    | [], _ => exact .inl rfl
    | _ :: _, [] => exact .inr rfl
    | own :: rest, first :: front =>
      obtain ⟨rfl, -⟩ := List.cons.inj h
      exact absurd List.mem_cons_self (hapart own List.mem_cons_self)
  · rintro (rfl | rfl)
    · rw [List.append_nil, List.nil_append]
    · rw [List.append_nil, List.nil_append]

section

variable {members : Fields Rest}

/-- The last field behind the `ACL` is none of those between the two. -/
theorem last_not_between (hn : (Fields.keys members).Nodup) :
    ∀ own ∈ lastBehind members, own ∉ fieldsBetween members := by
  have hbehind : (behindAcl members).Nodup :=
    hn.of_map.sublist ((List.tail_sublist _).trans (List.dropWhile_sublist _))
  unfold lastBehind fieldsBetween
  rcases List.eq_nil_or_concat' (behindAcl members) with he | ⟨between, last, he⟩
  · rw [he]
    exact fun _ hm => nomatch hm
  · rw [he, List.dropLast_concat, List.getLast?_concat]
    rw [he, List.nodup_append] at hbehind
    intro own hlast hbetween
    exact hbehind.2.2 own (List.mem_filter.1 hbetween).1 own (List.mem_filter.1 hlast).1 rfl

/-- The order of the other fields, when the last one behind the `ACL` takes its place. -/
theorem otherFields_eq_iff (hn : (Fields.keys members).Nodup) {derived : Fields Rest}
    (h : otherFields derived = otherFields (beforeAcl members) ++
      (lastBehind members ++ fieldsBetween members)) :
    otherFields derived = otherFields members ↔
      lastBehind members = [] ∨ fieldsBetween members = [] := by
  rw [h, otherFields_eq hn, List.append_cancel_left_eq]
  refine moved_eq_iff (Nat.le_trans (List.length_filter_le _ _) ?_) (last_not_between hn)
  cases (behindAcl members).getLast? with
  | none => exact Nat.zero_le _
  | some last => exact Nat.le_refl _

/-- What derived permissions leave of an object. -/
theorem derived_parts {derived : Fields Rest} (hn : (Fields.keys members).Nodup)
    (h : withLegacyAcl members = .ok derived) :
    aclKey ∉ Fields.keys derived ∧
      (∀ key, isPermissionField key = false →
        Fields.get? derived key = Fields.get? members key) ∧
      otherFields derived = otherFields (beforeAcl members) ++
        (lastBehind members ++ fieldsBetween members) := by
  obtain ⟨permissions, hset, he⟩ := Outcome.map_eq_ok.1 h
  cases permissions with
  | none =>
    obtain rfl : members = derived := he
    have hacl : aclKey ∉ Fields.keys members := by
      rw [← Fields.get?_eq_none_iff]
      exact PermissionSet.get?_acl_of_none hset
    refine ⟨hacl, fun _ _ => rfl, ?_⟩
    rw [← otherFields_swapErase hn, Fields.swapErase_of_not_mem hacl]
  | some set =>
    obtain rfl : set.replaced members = derived := he
    refine ⟨(Fields.get?_eq_none_iff _ _).1 (PermissionSet.get?_replaced_acl hn),
      fun key hkey => ?_, otherFields_replaced set hn⟩
    obtain ⟨hacl, hnames⟩ := not_or.1 (of_decide_eq_false hkey)
    rw [PermissionSet.get?_replaced_other hnames, Fields.get?_swapErase _ hn, if_neg hacl]

/-- **Deriving permissions keeps the other fields** of an object with their values, and leaves no
`ACL`. Their order is kept, too, except that the last field behind the `ACL` takes its place. So the
whole order is kept just when that is a permission field, or there is no other field between. -/
theorem other_fields_kept {derived : Fields Rest} (hn : (Fields.keys members).Nodup)
    (h : withLegacyAcl members = .ok derived) :
    aclKey ∉ Fields.keys derived ∧
      (∀ key, isPermissionField key = false →
        Fields.get? derived key = Fields.get? members key) ∧
      (otherFields derived).Perm (otherFields members) ∧
      otherFields members = otherFields (beforeAcl members) ++
        (fieldsBetween members ++ lastBehind members) ∧
      otherFields derived = otherFields (beforeAcl members) ++
        (lastBehind members ++ fieldsBetween members) ∧
      (otherFields derived = otherFields members ↔
        lastBehind members = [] ∨ fieldsBetween members = []) := by
  obtain ⟨hacl, hvalues, hafter⟩ := derived_parts hn h
  have hbefore := otherFields_eq hn
  refine ⟨hacl, hvalues, ?_, hbefore, hafter, otherFields_eq_iff hn hafter⟩
  rw [hafter, hbefore]
  exact List.perm_append_comm.append_left _

end

/-- A note with an `ACL` before its fields. -/
def leadingNote : Fields Rest :=
  [("ACL", .object [("ann", .object [("read", .bool true)])]), ("title", .string "tea"),
    ("done", .bool false), ("rank", .number (.integer 2))]

/-- The note with its permissions derived. -/
def leadingNoteDerived : Fields Rest :=
  [("rank", .number (.integer 2)), ("title", .string "tea"), ("done", .bool false),
    ("_rperm", .array [.string "ann"]), ("_wperm", .array []),
    ("_acl", .object [("ann", .object [("r", .bool true)])])]

theorem withLegacyAcl_leadingNote : withLegacyAcl leadingNote = .ok leadingNoteDerived := by
  have hset : PermissionSet.ofMembers? leadingNote =
      .ok (some ⟨[⟨"ann", some 0, none⟩], true, true⟩) := rfl
  rw [withLegacyAcl, hset]
  simp only [Except.map, PermissionSet.members, PermissionSet.readIds, PermissionSet.writeIds,
    if_true, PermissionSet.project_single]
  rfl

theorem other_fields_kept_note :
    (Fields.keys leadingNote).Nodup ∧ withLegacyAcl leadingNote = .ok leadingNoteDerived ∧
      aclKey ∉ Fields.keys leadingNoteDerived ∧
      Fields.get? leadingNoteDerived "title" = Fields.get? leadingNote "title" ∧
      otherFields leadingNoteDerived ≠ otherFields leadingNote := by
  have hn : (Fields.keys leadingNote).Nodup := by decide
  obtain ⟨hacl, hvalues, -, -, -, horder⟩ := other_fields_kept hn withLegacyAcl_leadingNote
  refine ⟨hn, withLegacyAcl_leadingNote, hacl, hvalues "title" (by decide), ?_⟩
  rw [ne_eq, horder]
  rintro (h | h)
  · cases h
  · cases h

/-- Deriving permissions changes the order of other fields: an `ACL` that stands before two fields
lets the second one pass the first. -/
theorem other_fields_reordered :
    (Fields.keys leadingNote).Nodup ∧ withLegacyAcl leadingNote = .ok leadingNoteDerived ∧
      (otherFields leadingNote).map Prod.fst = ["title", "done", "rank"] ∧
      (otherFields leadingNoteDerived).map Prod.fst = ["rank", "title", "done"] :=
  ⟨by decide, withLegacyAcl_leadingNote, rfl, rfl⟩

end RestStore
