import RestStore.Decode
import RestStore.Proofs.Fields

/-!
# Placeholders of relations

Every relation of the schema that an object does not hold yet gets a placeholder:
`get?_foldl_addRelation`, `get?_relations`.
-/

set_option autoImplicit false

namespace RestStore

/-- No field is declared twice. -/
theorem Schema.nodup_fields (schema : Schema) : (Fields.keys schema.fields).Nodup :=
  schema.ascending.imp fun hlt he => by
    subst he
    rw [show textBefore _ _ = false from comesBefore_irrefl _] at hlt
    cases hlt

/-- The placeholder of a declared relation. -/
def FieldSchema.placeholder (field : FieldSchema) : Rest :=
  Relation.toEnvelope ⟨field.targetOrEmpty⟩

/-- The placeholder under a name, if it is declared as a relation. -/
def Schema.placeholder? (schema : Schema) (key : String) : Option Rest :=
  ((schema.field? key).filter fun field => field.type == .relation).map FieldSchema.placeholder

section

variable {schema : Schema} {key : String}

theorem Schema.placeholder?_relation {field : FieldSchema} (hf : schema.field? key = some field)
    (ht : field.type = .relation) : schema.placeholder? key = some field.placeholder := by
  unfold Schema.placeholder?
  rw [hf]
  simp [Option.filter, ht]

theorem Schema.placeholder?_eq_none (h : schema.fieldIs key .relation = false) :
    schema.placeholder? key = none := by
  unfold Schema.fieldIs at h
  unfold Schema.placeholder?
  cases hf : schema.field? key with
  | none => rfl
  | some field =>
    rw [hf] at h
    simp only [Option.any_some] at h
    simp [Option.filter, h]

theorem Schema.fieldIs_of_field? {field : FieldSchema} (hf : schema.field? key = some field)
    (type : FieldType) : schema.fieldIs key type = (field.type == type) := by
  unfold Schema.fieldIs
  rw [hf]
  rfl

end

theorem Schema.get?_relations (schema : Schema) (key : String) :
    Fields.get? schema.relations key =
      (schema.field? key).filter fun field => field.type == .relation :=
  Fields.get?_filter (fun field : FieldSchema => field.type == .relation) key
    schema.nodup_fields

namespace Decode

theorem get?_addRelation (object : Fields Rest) (entry : String × FieldSchema) (key : String) :
    Fields.get? (addRelation object entry) key =
      (Fields.get? object key).or (if entry.1 = key then some entry.2.placeholder else none) := by
  unfold addRelation Fields.contains
  by_cases hk : entry.1 = key
  · rw [if_pos hk, hk]
    cases hget : Fields.get? object key with
    | some value => simp [hget]
    | none => simp [FieldSchema.placeholder]
  · rw [if_neg hk, Option.or_none]
    split
    · rfl
    · rw [Fields.get?_insert_of_ne _ _ hk]

/-- A placeholder is added under every name that is free. -/
theorem get?_foldl_addRelation : ∀ (entries : Fields FieldSchema) (object : Fields Rest)
    (key : String), Fields.get? (entries.foldl addRelation object) key =
      (Fields.get? object key).or ((Fields.get? entries key).map FieldSchema.placeholder)
  | [], object, key => by simp
  | (name, field) :: rest, object, key => by
    rw [List.foldl_cons, get?_foldl_addRelation rest, get?_addRelation, Option.or_assoc,
      Fields.get?_cons]
    split <;> simp

theorem nodup_foldl_addRelation : ∀ (entries : Fields FieldSchema) {object : Fields Rest},
    (Fields.keys object).Nodup → (Fields.keys (entries.foldl addRelation object)).Nodup
  | [], _, h => h
  | entry :: rest, object, h => by
    refine nodup_foldl_addRelation rest ?_
    unfold addRelation Fields.contains
    split
    · exact h
    · rename_i hc
      have hnew : entry.1 ∉ Fields.keys object := by
        rw [← Fields.get?_eq_none_iff]
        simpa using hc
      rw [Fields.keys_insert_of_not_mem _ _ hnew]
      exact List.nodup_append.2 ⟨h, List.nodup_singleton _, fun key hk other ho he =>
        hnew (by rw [← List.mem_singleton.1 ho, ← he]; exact hk)⟩

end Decode

end RestStore
