import RestStore.Proofs.Outcome
import RestStore.Write.Update

/-!
# What the fields of a request give, one by one

Creating and updating go over the fields of a request in the same way: each field gives something of
its own, what they give stands in their order, and the first that fails refuses the request.

* `gather` — going over a list in this way; `gather_eq_ok_iff` and `gather_refused` say what comes
  out.
* `Create.columns_eq_gather`, `Update.fields_eq_gather` — both paths do.
* `Create.part_of_permission`, `Update.part_of_permission` — permissions give nothing there.
-/

set_option autoImplicit false

namespace RestStore

section

variable {α β : Type} {part : α → Except Failure (List β)}

/-- What the elements of a list give, one after the other, or the first failure. -/
def gather (part : α → Except Failure (List β)) : List α → Except Failure (List β)
  | [] => .ok []
  | a :: rest =>
    match part a with
    | .error failure => .error failure
    | .ok own => (gather part rest).map (own ++ ·)

/-- What an element gives, nothing where it fails. -/
def partOf (part : α → Except Failure (List β)) (a : α) : List β := (part a).toOption.getD []

theorem partOf_of_ok {a : α} {own : List β} (h : part a = .ok own) : partOf part a = own := by
  rw [partOf, h]
  rfl

/-- **What comes out** when no element fails is what each of them gives. -/
theorem gather_eq_ok_iff : ∀ {elements : List α} {gathered : List β},
    gather part elements = .ok gathered ↔
      (∀ a ∈ elements, ∃ own, part a = .ok own) ∧ gathered = elements.flatMap (partOf part)
  | [], gathered => by
    rw [gather, Except.ok.injEq, eq_comm]
    simp
  | a :: rest, gathered => by
    rw [gather, List.forall_mem_cons, List.flatMap_cons]
    cases ha : part a with
    | error failure => simp
    | ok own =>
      rw [partOf_of_ok ha, Outcome.map_eq_ok]
      constructor
      · rintro ⟨later, hlater, rfl⟩
        obtain ⟨hall, rfl⟩ := gather_eq_ok_iff.1 hlater
        exact ⟨⟨⟨own, rfl⟩, hall⟩, rfl⟩
      · rintro ⟨⟨-, hall⟩, rfl⟩
        exact ⟨_, gather_eq_ok_iff.2 ⟨hall, rfl⟩, rfl⟩

/-- A list is refused when an element fails. -/
theorem gather_refused {elements : List α} (h : ¬∀ a ∈ elements, ∃ own, part a = .ok own) :
    ∃ failure, gather part elements = .error failure := by
  cases hg : gather part elements with
  | error failure => exact ⟨failure, rfl⟩
  | ok gathered => exact absurd (gather_eq_ok_iff.1 hg).1 h

theorem flatMap_filter {keep : α → Bool} (h : ∀ a, keep a = false → partOf part a = []) :
    ∀ elements : List α, (elements.filter keep).flatMap (partOf part) =
      elements.flatMap (partOf part)
  | [] => rfl
  | a :: rest => by
    rw [List.filter_cons, List.flatMap_cons]
    cases hk : keep a with
    | true => rw [if_pos rfl, List.flatMap_cons, flatMap_filter h rest]
    | false =>
      rw [if_neg Bool.false_ne_true, flatMap_filter h rest, h a hk]
      rfl

end

namespace Create

/-- The column of a field. Permissions and relations are stored elsewhere. -/
def part (target : Target) (member : String × Rest) : Except Failure Document :=
  if isPermissionKey member.1 || target.isRelation member.1 member.2 then .ok []
  else (column? target member.1 member.2).map Option.toList

theorem columns_eq_gather (target : Target) : ∀ members : Fields Rest,
    columns target members = gather (part target) members
  | [] => rfl
  | (key, value) :: rest => by
    rw [columns, gather, part, columns_eq_gather target rest]
    dsimp only
    split
    · cases gather (part target) rest <;> rfl
    · cases column? target key value with
      | error failure => rfl
      | ok own => rfl

theorem part_of_permission (target : Target) {member : String × Rest}
    (h : isPermissionKey member.1 = true) : part target member = .ok [] := by
  rw [part, h, Bool.true_or, if_pos rfl]

end Create

namespace Update

/-- The contribution of a field. The `ACL` and relations contribute elsewhere. -/
def part (target : Target) (member : String × Rest) : Except Failure (List Contribution) :=
  if member.1 == aclKey || target.isRelation member.1 member.2 then .ok []
  else (field? target member.1 member.2).map Option.toList

theorem fields_eq_gather (target : Target) : ∀ members : Fields Rest,
    fields target members = gather (part target) members
  | [] => rfl
  | (key, value) :: rest => by
    rw [fields, gather, part, fields_eq_gather target rest]
    dsimp only
    split
    · cases gather (part target) rest <;> rfl
    · cases field? target key value with
      | error failure => rfl
      | ok own => rfl

theorem part_of_permission (target : Target) {member : String × Rest}
    (h : Create.isPermissionKey member.1 = true) : part target member = .ok [] := by
  obtain ⟨key, value⟩ := member
  simp only [Create.isPermissionKey, Bool.or_eq_true, beq_iff_eq] at h
  unfold part
  rcases h with (rfl | rfl) | rfl
  · rfl
  · split <;> rfl
  · split <;> rfl

end Update

end RestStore
