import RestStore.Decode
import RestStore.Proofs.Bound.Queries
import RestStore.Write.Update

/-!
# Objects and documents below a larger bound

The bound on nesting only refuses. `looser_bound_same_outcome`: whatever a where clause, a new
object, an update or a stored document gives below one bound, a result or a failure, it gives below
every larger bound, unless it was refused for its depth.

* `Create.document_onlyRefuses`, `Update.document_onlyRefuses` — objects that are written.
* `Decode.object_onlyRefuses` — documents that are read.
-/

set_option autoImplicit false

namespace RestStore

variable {target : Target} {looser : Nat}

/-! ## New objects -/

namespace Create

theorem guard_loosens (h : target.config.maxDepth ≤ looser) :
    (guard target).Loosens (guard (target.withDepth looser)) := Nesting.loosens_top h .object

theorem column?_onlyRefuses (h : target.config.maxDepth ≤ looser) (key : String) (value : Rest) :
    OnlyRefuses (column? target key value) (column? (target.withDepth looser) key value) := by
  unfold column?
  split
  · exact (Native.verbatim_onlyRefuses (guard_loosens h) value).map _
  · split
    · exact .refl _
    · split
      · exact .refl _
      · have hvalue : OnlyRefuses (plainValue? target key value)
            (plainValue? (target.withDepth looser) key value) := by
          unfold plainValue?
          rw [show (target.withDepth looser).schema = target.schema from rfl]
          split
          · exact .refl _
          · exact .refl _
          · exact Native.nested_onlyRefuses (guard_loosens h) value
        exact hvalue.map _

theorem columns_onlyRefuses (h : target.config.maxDepth ≤ looser) : ∀ members : Fields Rest,
    OnlyRefuses (columns target members) (columns (target.withDepth looser) members)
  | [] => .refl _
  | (key, value) :: rest => by
    unfold columns
    rw [show (target.withDepth looser).isRelation key value = target.isRelation key value from rfl]
    split
    · exact columns_onlyRefuses h rest
    · exact (column?_onlyRefuses h key value).elim (fun _ _ _ => .tooDeep) (fun _ => .refl _)
        fun _ => (columns_onlyRefuses h rest).map _

theorem document_onlyRefuses (h : target.config.maxDepth ≤ looser) (members : Fields Rest) :
    OnlyRefuses (document target members) (document (target.withDepth looser) members) := by
  unfold document
  split
  · exact .refl _
  · exact (columns_onlyRefuses h members).map _

end Create

/-! ## Updates -/

namespace Update

theorem guard_loosens (h : target.config.maxDepth ≤ looser) :
    (guard target).Loosens (guard (target.withDepth looser)) := Nesting.loosens_top h .update

theorem compound?_onlyRefuses (h : target.config.maxDepth ≤ looser) (column : String)
    (value : Rest) : OnlyRefuses (compound? target column value)
      (compound? (target.withDepth looser) column value) := by
  have hnested := (Native.nested_onlyRefuses (guard_loosens h) value).map fun native =>
    native.map (setColumn column)
  unfold compound?
  cases value with
  | object members =>
    dsimp only
    split
    · split
      · exact .refl _
      · exact (Native.update_onlyRefuses (guard_loosens h) _).map _
    · exact hnested
  | null | bool _ | number _ | string _ | array _ => exact hnested

theorem value?_onlyRefuses (h : target.config.maxDepth ≤ looser) (key column : String)
    (value : Rest) : OnlyRefuses (value? target key column value)
      (value? (target.withDepth looser) key column value) := by
  unfold value?
  rw [show (target.withDepth looser).schema = target.schema from rfl]
  split
  · exact .refl _
  · split
    · exact (Native.verbatim_onlyRefuses (guard_loosens h) value).map _
    · exact .refl _
  · exact compound?_onlyRefuses h column value

theorem field?_onlyRefuses (h : target.config.maxDepth ≤ looser) (key : String) (value : Rest) :
    OnlyRefuses (field? target key value) (field? (target.withDepth looser) key value) := by
  unfold field?
  rw [show (target.withDepth looser).schema = target.schema from rfl,
    show (target.withDepth looser).hasNumericIds = target.hasNumericIds from rfl]
  extract_lets column
  split
  · exact .refl _
  · exact .refl _
  · split
    · exact .refl _
    · exact value?_onlyRefuses h key column.name _
  · exact value?_onlyRefuses h key column.name _

theorem fields_onlyRefuses (h : target.config.maxDepth ≤ looser) : ∀ members : Fields Rest,
    OnlyRefuses (fields target members) (fields (target.withDepth looser) members)
  | [] => .refl _
  | (key, value) :: rest => by
    unfold fields
    rw [show (target.withDepth looser).isRelation key value = target.isRelation key value from rfl]
    split
    · exact fields_onlyRefuses h rest
    · exact (field?_onlyRefuses h key value).elim (fun _ _ _ => .tooDeep) (fun _ => .refl _)
        fun _ => (fields_onlyRefuses h rest).map _

theorem document_onlyRefuses (h : target.config.maxDepth ≤ looser) (members : Fields Rest) :
    OnlyRefuses (document target members) (document (target.withDepth looser) members) := by
  have hall : OnlyRefuses (contributions target members)
      (contributions (target.withDepth looser) members) := by
    unfold contributions
    split
    · exact .refl _
    · exact (fields_onlyRefuses h members).map _
  exact hall.map _

end Update

/-! ## Stored documents -/

namespace Decode

theorem nested_onlyRefuses (h : target.config.maxDepth ≤ looser) (native : Native) :
    OnlyRefuses (nested target native) (nested (target.withDepth looser) native) :=
  Rest.ofNative_onlyRefuses (Nesting.loosens_top h .decode)

theorem plainPlacement_onlyRefuses (h : target.config.maxDepth ≤ looser) (column : String)
    (native : Native) : OnlyRefuses (plainPlacement target column native)
      (plainPlacement (target.withDepth looser) column native) := by
  have hvalue : OnlyRefuses (plainValue target column native)
      (plainValue (target.withDepth looser) column native) := by
    unfold plainValue
    rw [show (target.withDepth looser).schema = target.schema from rfl]
    split
    · exact .refl _
    · exact .refl _
    · exact nested_onlyRefuses h native
  unfold plainPlacement
  split
  · exact .refl _
  · exact hvalue.map _

theorem fieldPlacement_onlyRefuses (h : target.config.maxDepth ≤ looser) (column : String)
    (native : Native) : OnlyRefuses (fieldPlacement target column native)
      (fieldPlacement (target.withDepth looser) column native) := by
  unfold fieldPlacement
  rw [show loginProvider? (target.withDepth looser) column = loginProvider? target column from rfl]
  split
  · exact (nested_onlyRefuses h native).map _
  · split
    · exact .refl _
    · exact plainPlacement_onlyRefuses h column native

theorem internalValue_onlyRefuses (h : target.config.maxDepth ≤ looser) (native : Native) :
    OnlyRefuses (internalValue target native) (internalValue (target.withDepth looser) native) := by
  unfold internalValue
  split
  · exact .refl _
  · exact nested_onlyRefuses h _

theorem placement_onlyRefuses (h : target.config.maxDepth ≤ looser) (column : String)
    (native : Native) : OnlyRefuses (placement target column native)
      (placement (target.withDepth looser) column native) := by
  have hnested := nested_onlyRefuses h native
  unfold placement
  rw [show (target.withDepth looser).className = target.className from rfl]
  split
  · exact .refl _
  split
  · exact .refl _
  split
  · exact hnested.map _
  split
  · exact .refl _
  split
  · exact hnested.map _
  split
  · exact .refl _
  split
  · exact (internalValue_onlyRefuses h native).map _
  split
  · exact .refl _
  · exact fieldPlacement_onlyRefuses h column native

theorem placements_onlyRefuses (h : target.config.maxDepth ≤ looser) : ∀ document : Document,
    OnlyRefuses (placements target document) (placements (target.withDepth looser) document)
  | [] => .refl _
  | (column, native) :: rest => by
    unfold placements
    exact (placement_onlyRefuses h column native).elim (fun _ _ _ => .tooDeep) (fun _ => .refl _)
      fun _ => (placements_onlyRefuses h rest).map _

theorem permissionLists_onlyRefuses (h : target.config.maxDepth ≤ looser) (document : Document) :
    OnlyRefuses (permissionLists target document)
      (permissionLists (target.withDepth looser) document) := by
  have hlist : ∀ column, OnlyRefuses (permissionList target document column)
      (permissionList (target.withDepth looser) document column) := by
    intro column
    unfold permissionList
    split
    · exact .refl _
    · exact .refl _
    · exact nested_onlyRefuses h _
  unfold permissionLists
  split
  · exact (hlist readersColumn).elim (fun _ _ _ => .tooDeep) (fun _ => .refl _)
      fun _ => (hlist writersColumn).map _
  · exact .refl _

theorem object_onlyRefuses (h : target.config.maxDepth ≤ looser) (document : Document) :
    OnlyRefuses (object target document) (object (target.withDepth looser) document) := by
  unfold object
  rw [show (target.withDepth looser).schema = target.schema from rfl]
  exact (permissionLists_onlyRefuses h document).elim (fun _ _ _ => .tooDeep) (fun _ => .refl _)
    fun _ => (placements_onlyRefuses h document).map _

end Decode

/-! ## The bound only refuses -/

/-- **A bound on nesting only refuses.** What is not refused for its depth has the same outcome, a
result or a failure, below every larger bound: where clauses, new objects, updates, and stored
documents that are read. -/
theorem looser_bound_same_outcome {bound looser : Nat} (h : bound ≤ looser) (target : Target) :
    (∀ count now members,
      ¬IsTooDeep (Where.document ⟨target.withDepth bound, count, now⟩ members) →
        Where.document ⟨target.withDepth looser, count, now⟩ members =
          Where.document ⟨target.withDepth bound, count, now⟩ members) ∧
    (∀ members, ¬IsTooDeep (Create.document (target.withDepth bound) members) →
      Create.document (target.withDepth looser) members =
        Create.document (target.withDepth bound) members) ∧
    (∀ members, ¬IsTooDeep (Update.document (target.withDepth bound) members) →
      Update.document (target.withDepth looser) members =
        Update.document (target.withDepth bound) members) ∧
    ∀ document, ¬IsTooDeep (Decode.object (target.withDepth bound) document) →
      Decode.object (target.withDepth looser) document =
        Decode.object (target.withDepth bound) document := by
  have hbound : (target.withDepth bound).config.maxDepth ≤ looser := h
  refine ⟨fun count now members => ?_, fun members => ?_, fun members => ?_, fun document => ?_⟩
  · exact (Where.document_onlyRefuses ⟨target, count, now⟩ members h).eq
  · exact (Create.document_onlyRefuses hbound members).eq
  · exact (Update.document_onlyRefuses hbound members).eq
  · exact (Decode.object_onlyRefuses hbound document).eq

/-- The class of memos. -/
def memoTarget : Target := ⟨"Memo", .ofFields [("tags", ⟨.array, none⟩)], .standard⟩

/-- Memos with a tag, below a combinator. -/
def memoClause : Fields Rest := [("$or", .array [.object [("tags", .string "a")]])]

/-- A memo with a path inside its value. -/
def memoWithPath : Fields Rest := [("meta", .object [("a.b", .null)])]

/-- The tags of a memo. -/
def memoTags : Fields Rest := [("tags", .array [.string "a"])]

/-- A stored memo. -/
def storedMemo : Document := [("tags", .array [.int32 1])]

theorem looser_bound_same_outcome_memo :
    (Where.document ⟨memoTarget.withDepth 2, false, ⟨0, 0⟩⟩ memoClause =
        .ok [("$or", .array [.document [("tags", .document [("$all", .array [.string "a"])])]])] ∧
      Where.document ⟨memoTarget.withDepth 64, false, ⟨0, 0⟩⟩ memoClause =
        Where.document ⟨memoTarget.withDepth 2, false, ⟨0, 0⟩⟩ memoClause) ∧
    (Create.document (memoTarget.withDepth 2) memoWithPath = .error (.shape .uncleanKey) ∧
      Create.document (memoTarget.withDepth 64) memoWithPath =
        Create.document (memoTarget.withDepth 2) memoWithPath) ∧
    (Update.document (memoTarget.withDepth 2) memoTags =
        .ok [("$set", .document [("tags", .array [.string "a"])])] ∧
      Update.document (memoTarget.withDepth 64) memoTags =
        Update.document (memoTarget.withDepth 2) memoTags) ∧
    Decode.object (memoTarget.withDepth 2) storedMemo =
        .ok [("tags", .array [.number (.integer 1)])] ∧
      Decode.object (memoTarget.withDepth 64) storedMemo =
        Decode.object (memoTarget.withDepth 2) storedMemo := by
  obtain ⟨hquery, hcreate, hupdate, hread⟩ :=
    looser_bound_same_outcome (show 2 ≤ 64 by decide) memoTarget
  have hpath : ¬IsTooDeep (Create.document (memoTarget.withDepth 2) memoWithPath) := by
    rintro ⟨_, _, he⟩
    cases he
  exact ⟨⟨rfl, hquery _ _ _ (not_isTooDeep_ok _)⟩, ⟨rfl, hcreate _ hpath⟩,
    ⟨rfl, hupdate _ (not_isTooDeep_ok _)⟩, rfl, hread _ (not_isTooDeep_ok _)⟩

end RestStore
