import RestStore.Fields
import RestStore.Rest.Basic
import RestStore.Text.Order

/-!
# Class schemas

The declared fields of a class, in the order of their names.

* `Schema.ofFields` sorts declarations by name, a later one replacing an earlier one; the order is
  part of the type, so no name is declared twice.
* `Schema.ofRest?` reads a schema, in its keyed or in its positional form, and `Schema.toRest`
  writes the keyed form.
-/

set_option autoImplicit false

namespace RestStore

/-- The declared type of a field. -/
inductive FieldType where
  | string
  | number
  | boolean
  | date
  | bytes
  | geoPoint
  | polygon
  | file
  | pointer
  | relation
  | array
  | object
deriving DecidableEq, Repr

namespace FieldType

/-- All types. -/
def all : List FieldType :=
  [string, number, boolean, date, bytes, geoPoint, polygon, file, pointer, relation, array, object]

/-- The name of a type. -/
def name : FieldType → String
  | string => "String"
  | number => "Number"
  | boolean => "Boolean"
  | date => "Date"
  | bytes => "Bytes"
  | geoPoint => "GeoPoint"
  | polygon => "Polygon"
  | file => "File"
  | pointer => "Pointer"
  | relation => "Relation"
  | array => "Array"
  | object => "Object"

/-- The type with a name. -/
def ofName? (text : String) : Option FieldType := all.find? fun type => type.name == text

theorem ofName?_name (type : FieldType) : ofName? type.name = some type := by
  cases type <;> rfl

/-- A type is written as its name, or as an object whose one key is the name. -/
def ofRest? : Rest → Option FieldType
  | .string text => ofName? text
  | .object [(text, .null)] => ofName? text
  | _ => none

end FieldType

/-- The declaration of a field; the target class is that of a pointer or relation. -/
structure FieldSchema where
  type : FieldType
  target : Option String
deriving DecidableEq, Repr

namespace FieldSchema

/-- The target class, empty when there is none. -/
def targetOrEmpty (field : FieldSchema) : String := field.target.getD ""

/-- An optional class name. -/
def targetOfRest? : Option Rest → Option (Option String)
  | none | some .null => some none
  | some (.string target) => some (some target)
  | some _ => none

/-- A declaration in its keyed form `type`, `targetClass`, or with the two in that order. -/
def ofRest? : Rest → Option FieldSchema
  | .object members => do
    let type ← FieldType.ofRest? (← Fields.get? members "type")
    let target ← targetOfRest? (Fields.get? members "targetClass")
    pure ⟨type, target⟩
  | .array [type] => (FieldType.ofRest? type).map fun type => ⟨type, none⟩
  | .array [type, target] => do
    let type ← FieldType.ofRest? type
    let target ← targetOfRest? (some target)
    pure ⟨type, target⟩
  | _ => none

/-- The keyed form of a declaration. -/
def toRest (field : FieldSchema) : Rest :=
  .object (("type", .string field.type.name) ::
    match field.target with
    | none => []
    | some target => [("targetClass", .string target)])

end FieldSchema

/-- Whether names are in strictly ascending order. -/
def Ascending (fields : Fields FieldSchema) : Prop :=
  (Fields.keys fields).Pairwise fun a b => textBefore a b = true

/-- The declared fields of a class. -/
structure Schema where
  fields : Fields FieldSchema
  ascending : Ascending fields

namespace Schema

/-- Declares a field at its place in the order. -/
def place (name : String) (field : FieldSchema) : Fields FieldSchema → Fields FieldSchema
  | [] => [(name, field)]
  | (other, old) :: rest =>
    if name = other then (name, field) :: rest
    else if textBefore name other then (name, field) :: (other, old) :: rest
    else (other, old) :: place name field rest

theorem mem_keys_place {name : String} {field : FieldSchema} {fields : Fields FieldSchema}
    {key : String} (h : key ∈ Fields.keys (place name field fields)) :
    key = name ∨ key ∈ Fields.keys fields := by
  induction fields with
  | nil => simpa [place] using h
  | cons entry rest ih =>
    obtain ⟨other, old⟩ := entry
    unfold place at h
    split at h
    next e =>
      subst e
      simpa using h
    next =>
      split at h
      · simpa using h
      · simp only [Fields.keys_cons, List.mem_cons] at h ⊢
        rcases h with h | h
        · exact .inr (.inl h)
        · exact (ih h).imp id .inr

theorem ascending_place (name : String) (field : FieldSchema) {fields : Fields FieldSchema}
    (h : Ascending fields) : Ascending (place name field fields) := by
  induction fields with
  | nil => simp [place, Ascending]
  | cons entry rest ih =>
    obtain ⟨other, old⟩ := entry
    have parts : (∀ key ∈ Fields.keys rest, textBefore other key = true) ∧ Ascending rest := by
      simpa [Ascending] using h
    unfold place
    split
    next e =>
      subst e
      simpa [Ascending] using parts
    next hne =>
      split
      next hlt =>
        have below : ∀ key ∈ Fields.keys rest, textBefore name key = true := fun key hk =>
          comesBefore_trans hlt (parts.1 key hk)
        simpa [Ascending] using ⟨⟨hlt, below⟩, parts⟩
      next hnlt =>
        have above : textBefore other name = true :=
          comesBefore_of_not (Bool.not_eq_true _ ▸ hnlt) fun e => hne (String.toList_inj.mp e)
        have rest' : ∀ key ∈ Fields.keys (place name field rest), textBefore other key = true := by
          intro key hk
          rcases mem_keys_place hk with hk | hk
          · exact hk ▸ above
          · exact parts.1 key hk
        simpa [Ascending] using And.intro rest' (ih parts.2)

/-- The schema without fields. -/
def empty : Schema := ⟨[], List.Pairwise.nil⟩

/-- The schema with one more declaration. -/
def declare (schema : Schema) (name : String) (field : FieldSchema) : Schema :=
  ⟨place name field schema.fields, ascending_place name field schema.ascending⟩

/-- The schema of a list of declarations. -/
def ofFields (entries : Fields FieldSchema) : Schema :=
  entries.foldl (fun schema entry => schema.declare entry.1 entry.2) empty

/-- The declaration of a field. -/
def field? (schema : Schema) (name : String) : Option FieldSchema :=
  Fields.get? schema.fields name

/-- Whether a field is declared with exactly a type. -/
def fieldIs (schema : Schema) (name : String) (type : FieldType) : Bool :=
  (schema.field? name).any fun field => field.type == type

/-- The relation fields, in the order of their names. -/
def relations (schema : Schema) : Fields FieldSchema :=
  schema.fields.filter fun entry => entry.2.type == .relation

/-- The declarations of a keyed object. -/
def entriesOfMembers? : List (String × Rest) → Option (Fields FieldSchema)
  | [] => some []
  | (name, value) :: rest => do
    let field ← FieldSchema.ofRest? value
    let entries ← entriesOfMembers? rest
    pure ((name, field) :: entries)

/-- The declarations that an object holds. -/
def ofDeclarations? : Rest → Option Schema
  | .object members => (entriesOfMembers? members).map ofFields
  | _ => none

/-- A schema in its keyed form, or as a list of nothing or of its fields. -/
def ofRest? : Rest → Option Schema
  | .object members =>
    match Fields.get? members "fields" with
    | none => some empty
    | some fields => ofDeclarations? fields
  | .array [] => some empty
  | .array [fields] => ofDeclarations? fields
  | _ => none

/-- The keyed form of a schema. -/
def toRest (schema : Schema) : Rest :=
  .object [("fields", .object (schema.fields.map fun entry => (entry.1, entry.2.toRest)))]

end Schema

end RestStore
