import RestStore.Decode
import RestStore.Proofs.Column
import RestStore.Proofs.Outcome

/-!
# Where columns go

The columns of a client's own fields, and the columns of pointers, are not among the fixed columns
that the decoder knows by name: `placement_plain`, `placement_pointer`. A document is placed column
by column: `placements_ok_iff`.
-/

set_option autoImplicit false

namespace RestStore

namespace Decode

variable {target : Target} {native : Native}

/-- The fixed columns without an underscore. -/
def fixedFields : List String :=
  ["createdAt", "updatedAt", "lastUsed", "expiresAt", "timesUsed", "times_used"]

/-- A column that is not fixed is the column of a field. -/
theorem placement_of_not_fixed {column : String}
    (hcolumns : column ∉ [readersColumn, writersColumn, legacyAclColumn, idColumn,
      "_session_token", "_expiresAt", "_created_at", "_updated_at", "_last_used"])
    (hinternal : column ∉ internalColumns) (hfields : column ∉ fixedFields)
    (hlogin : ¬(column = loginDataKey ∧ target.className = userClass)) :
    placement target column native = fieldPlacement target column native := by
  simp only [List.mem_cons, List.not_mem_nil, or_false, not_or] at hcolumns
  simp only [fixedFields, List.mem_cons, List.not_mem_nil, or_false, not_or] at hfields
  unfold placement
  rw [if_neg (by simp [hcolumns]), if_neg hcolumns.2.2.2.1, if_neg hcolumns.2.2.2.2.1,
    if_neg (by simp [hcolumns, hfields]), if_neg (by simp [hfields]), if_neg hlogin,
    if_neg hinternal]
  have htime : timeField? column = none := by
    unfold timeField?
    rw [if_neg (by simp [hcolumns, hfields]), if_neg (by simp [hcolumns, hfields]),
      if_neg (by simp [hcolumns, hfields])]
  rw [htime]

/-- **The column of a client's own field** goes to the field. -/
theorem placement_plain {key : String} (hs : hasStart "_" key = false) (hf : key ∉ fixedFields)
    (hlogin : ¬(key = loginDataKey ∧ target.className = userClass)) :
    placement target key native = (plainValue target key native).map (.field key) := by
  rw [placement_of_not_fixed (not_mem_of_not_hasStart hs (by decide))
    (not_mem_of_not_hasStart hs (by decide)) hf hlogin]
  have hprovider : loginProvider? target key = none := by
    unfold loginProvider?
    rw [authColumnProvider?_eq_none hs]
    split <;> rfl
  unfold fieldPlacement plainPlacement
  rw [hprovider, dropStart?_eq_none (show hasStart "_" pointerStart = true by decide) hs, hs]
  rfl

/-- **The column of a pointer** goes to the field of the pointer. -/
theorem placement_pointer (field : String) :
    placement target (pointerStart ++ field) native =
      (pointer? target field native).map fun pointer =>
        match pointer with
        | some pointer => .field field pointer.toEnvelope
        | none => .nowhere := by
  have hstart : hasStart pointerStart (pointerStart ++ field) = true := hasStart_append _ _
  rw [placement_of_not_fixed (not_mem_of_hasStart hstart (by decide))
    (not_mem_of_hasStart hstart (by decide)) (not_mem_of_hasStart hstart (by decide))
    fun h => ne_of_hasStart hstart (by decide) h.1]
  have hauth : authColumnProvider? (pointerStart ++ field) = none := by
    rw [Option.eq_none_iff_forall_ne_some]
    intro provider hp
    have he := (authColumnProvider?_eq_some hp).1
    rw [he] at hstart
    obtain ⟨rest, hrest⟩ := hasStart_iff.1 hstart
    have := congrArg String.toList hrest
    simp [authStart, pointerStart] at this
  have hprovider : loginProvider? target (pointerStart ++ field) = none := by
    unfold loginProvider?
    rw [hauth]
    split <;> rfl
  have hdrop : dropStart? pointerStart (pointerStart ++ field) = some field :=
    dropStart?_eq_some_iff.2 rfl
  unfold fieldPlacement
  split
  · rename_i hp
    rw [hprovider] at hp
    cases hp
  · split
    · rename_i found hfound
      rw [hdrop] at hfound
      cases hfound
      rfl
    · rename_i hfound
      rw [hdrop] at hfound
      cases hfound

end Decode

/-- A document is placed column by column. -/
theorem placements_ok_iff {target : Target} : ∀ (document : Document),
    (∃ placements, Decode.placements target document = .ok placements) ↔
      ∀ column ∈ document, ∃ placement,
        Decode.placement target column.1 column.2 = .ok placement
  | [] => by simp [Decode.placements]
  | (column, native) :: rest => by
    rw [List.forall_mem_cons, ← placements_ok_iff rest, Decode.placements]
    cases hp : Decode.placement target column native with
    | error failure => simp
    | ok placement =>
      rw [map_ok_iff]
      simp

end RestStore
