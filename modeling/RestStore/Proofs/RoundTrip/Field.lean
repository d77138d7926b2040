import RestStore.Proofs.Placement
import RestStore.Proofs.RoundTrip.Nested

/-!
# Fields both ways

A field whose value fits its declaration is written to a column that reads back as the same field.

* `Conforms` — the values that fit a declaration.
* `ClientKey` — the names of ordinary fields.
* `field_readsBack` — writing and reading one field.
-/

set_option autoImplicit false

namespace RestStore

open Rest (Reordered)

/-- The names that creating and reading treat on their own. -/
def specialKeys : List String :=
  [objectIdKey, "createdAt", "updatedAt", "lastUsed", "timesUsed", "times_used", "sessionToken",
    "expiresAt", aclKey, Decode.loginDataKey]

/-- The name of an ordinary field of a client. -/
structure ClientKey (key : String) : Prop where
  not_internal : hasStart "_" key = false
  not_path : Column.isPath key = false
  not_special : key ∉ specialKeys

/-- A value that fits the declaration of its field; envelopes have exactly their own members. -/
inductive Conforms (maxDepth : Nat) (field : FieldSchema) : Rest → Prop
  | null : field.type ≠ .relation → Conforms maxDepth field .null
  | string (text : String) : field.type = .string → Conforms maxDepth field (.string text)
  | number {number : Number} : field.type = .number → number.Storable →
    Conforms maxDepth field (.number number)
  | bool (flag : Bool) : field.type = .boolean → Conforms maxDepth field (.bool flag)
  | date {value : Rest} (moment : IsoMoment) : field.type = .date →
    Reordered value moment.toEnvelope → Conforms maxDepth field value
  | bytes {value : Rest} {bytes : Bytes} {payload : List UInt8} : field.type = .bytes →
    bytes.payload = .ok payload → Reordered value bytes.toEnvelope → Conforms maxDepth field value
  | geoPoint {value : Rest} {point : GeoPoint} : field.type = .geoPoint → point.Storable →
    Reordered value point.toEnvelope → Conforms maxDepth field value
  /-- The ring is closed already, with three different vertices, and lies on the globe. -/
  | polygon {value : Rest} {polygon : Polygon} : field.type = .polygon →
    polygon.ring = .ok polygon.vertices →
      (∀ point ∈ polygon.vertices, point.Storable ∧ point.validate = .ok ()) →
        Reordered value polygon.toEnvelope → Conforms maxDepth field value
  | file {value : Rest} (name : String) : field.type = .file →
    Reordered value (File.toEnvelope ⟨name, none⟩) → Conforms maxDepth field value
  | pointer {value : Rest} (id : String) : field.type = .pointer →
    '$' ∉ field.targetOrEmpty.toList →
      Reordered value (Pointer.toEnvelope ⟨field.targetOrEmpty, id⟩) →
        Conforms maxDepth field value
  | relation {value : Rest} : field.type = .relation →
    Reordered value (Relation.toEnvelope ⟨field.targetOrEmpty⟩) → Conforms maxDepth field value
  | array {items : List Rest} : field.type = .array → (∀ item ∈ items, Plain item) →
    (Rest.array items).height ≤ maxDepth → Conforms maxDepth field (.array items)
  | object {members : Fields Rest} : field.type = .object →
    (∀ key ∈ Fields.keys members, Native.isCleanKey key = true) →
      typeKey ∉ Fields.keys members → operationKey ∉ Fields.keys members →
        (∀ member ∈ members, Plain member.2) → (Rest.object members).height ≤ maxDepth →
          Conforms maxDepth field (.object members)

/-! ## Atoms of declared types -/

theorem verticesOfNative?_map : ∀ {points : List GeoPoint},
    (∀ point ∈ points, point.Storable ∧ point.validate = .ok ()) →
      Polygon.verticesOfNative? (points.map (·.toNative)) = .ok (some points)
  | [], _ => rfl
  | point :: rest, h => by
    obtain ⟨hs, hv⟩ := h point List.mem_cons_self
    rw [List.map_cons, Polygon.verticesOfNative?, ofNative?_toNative_geoPoint hs]
    dsimp only
    rw [hv, verticesOfNative?_map fun other ho => h other (List.mem_cons_of_mem _ ho)]
    rfl

theorem ofNative?_documentOfRing {polygon : Polygon}
    (h : ∀ point ∈ polygon.vertices, point.Storable ∧ point.validate = .ok ()) :
    Polygon.ofNative? (Polygon.documentOfRing polygon.vertices) = .ok (some polygon) := by
  unfold Polygon.documentOfRing Polygon.ofNative? Polygon.storedRing?
  simp [Fields.get?, verticesOfNative?_map h, Except.map]

theorem columnAtom?_of_shape {field : Option FieldSchema} {value : Rest} {shape : Shape}
    (h : value.shape = .ok shape) :
    Native.columnAtom? field value = Native.ofColumnShape? field shape := by
  unfold Native.columnAtom?
  rw [h]

/-- A value whose declared type is stored in a form of its own, which reads back as the value. -/
def TypedReadsBack (field : FieldSchema) (value : Rest) : Prop :=
  ∃ native back, Native.columnAtom? (some field) value = .ok (some native) ∧
    Decode.typed? (some field.type) native = .ok (some back) ∧ Rest.Alike back value

section

variable {field : FieldSchema} {value : Rest}

theorem typedReadsBack_bytes {bytes : Bytes} {payload : List UInt8} (ht : field.type = .bytes)
    (hp : bytes.payload = .ok payload) (hv : Reordered value bytes.toEnvelope) :
    TypedReadsBack field value := by
  refine ⟨.binary payload 0, bytes.toEnvelope, ?_, ?_, hv.alike_tagged (by simp [typeKey])⟩
  · rw [columnAtom?_of_shape (shape_bytes hp hv)]
    simp [Native.ofColumnShape?, Bytes.toNative, hp, Except.map]
  · rw [ht]
    show Except.ok (some (Bytes.toEnvelope ⟨(StoredBytes.wrapped payload).base64⟩)) = _
    rw [← Bytes.payload_iff.1 hp]

theorem typedReadsBack_geoPoint {point : GeoPoint} (ht : field.type = .geoPoint)
    (hs : point.Storable) (hv : Reordered value point.toEnvelope) : TypedReadsBack field value := by
  refine ⟨point.toNative, point.toEnvelope, columnAtom?_of_shape (shape_geoPoint hv), ?_,
    hv.alike_tagged (by simp [typeKey])⟩
  rw [ht]
  show Except.ok ((GeoPoint.ofNative? point.toNative).map GeoPoint.toEnvelope) = _
  rw [ofNative?_toNative_geoPoint hs]
  rfl

theorem typedReadsBack_polygon {polygon : Polygon} (ht : field.type = .polygon)
    (hring : polygon.ring = .ok polygon.vertices)
    (hpoints : ∀ point ∈ polygon.vertices, point.Storable ∧ point.validate = .ok ())
    (hv : Reordered value polygon.toEnvelope) : TypedReadsBack field value := by
  refine ⟨Polygon.documentOfRing polygon.vertices, polygon.toEnvelope, ?_, ?_,
    hv.alike_tagged (by simp [typeKey])⟩
  · rw [columnAtom?_of_shape (shape_polygon hv)]
    simp [Native.ofColumnShape?, Polygon.toNative, hring, Except.map]
  · rw [ht]
    show (Polygon.ofNative? _).map _ = _
    rw [ofNative?_documentOfRing hpoints]
    rfl

theorem typedReadsBack_file {name : String} (ht : field.type = .file)
    (hv : Reordered value (File.toEnvelope ⟨name, none⟩)) : TypedReadsBack field value := by
  refine ⟨.string name, File.toEnvelope ⟨name, none⟩, columnAtom?_of_shape (shape_file hv), ?_,
    hv.alike_tagged (by simp [typeKey])⟩
  rw [ht]
  rfl

end

/-! ## One field -/

/-- Writing a field and reading its column gives the field back. -/
def FieldReadsBack (target : Target) (key : String) (value : Rest) : Prop :=
  ∃ column native back, Create.column? target key value = .ok (some (column, native)) ∧
    Decode.placement target column native = .ok (.field key back) ∧ Rest.Alike back value ∧
    (column = key ∨ column = pointerStart ++ key)

section

variable {target : Target} {key : String} {value : Rest} {field : FieldSchema} {native : Native}

theorem column?_client (hkey : ClientKey key) :
    Create.column? target key value =
      (Create.plainValue? target key value).map fun native =>
        native.map fun native => (Create.plainColumn target key value, native) := by
  have hspecial := hkey.not_special
  simp only [specialKeys, List.mem_cons, List.not_mem_nil, or_false, not_or] at hspecial
  exact column?_plain value hkey.not_internal hspecial.1 hspecial.2.2.2.2.2.2.1
    (by simp [timeKeys, hspecial]) (authIdProvider?_eq_none hkey.not_path)

/-- A field in the column of its own name. -/
theorem fieldReadsBack_own (hclass : target.className ≠ Decode.userClass) (hkey : ClientKey key)
    (hpointer : Create.writesPointer target key value = false)
    (hcreate : Create.plainValue? target key value = .ok (some native)) {back : Rest}
    (hdecode : Decode.plainValue target key native = .ok back) (ha : Rest.Alike back value) :
    FieldReadsBack target key value := by
  have hspecial := hkey.not_special
  simp only [specialKeys, List.mem_cons, List.not_mem_nil, or_false, not_or] at hspecial
  have hplace : Decode.placement target key native = .ok (.field key back) := by
    rw [Decode.placement_plain hkey.not_internal (by simp [Decode.fixedFields, hspecial])
      fun h => hclass h.2, hdecode]
    rfl
  refine ⟨key, native, back, ?_, hplace, ha, .inl rfl⟩
  rw [column?_client hkey, hcreate]
  unfold Create.plainColumn
  rw [hpointer]
  rfl

theorem writesPointer_eq_false (hf : target.schema.field? key = some field)
    (ht : field.type ≠ .pointer) (htag : value.hasTag Pointer.kind = false) :
    Create.writesPointer target key value = false := by
  unfold Create.writesPointer Schema.fieldIs
  rw [hf, htag]
  simp [ht]

theorem isRelation_eq_false (hf : target.schema.field? key = some field)
    (ht : field.type ≠ .relation) (htag : value.hasTag Relation.kind = false) :
    target.isRelation key value = false := by
  unfold Target.isRelation Schema.fieldIs
  rw [hf, htag]
  simp [ht]

theorem plainValue_nested (hf : target.schema.field? key = some field)
    (ht : Decode.typed? (some field.type) native = .ok none) {levels : Nat}
    (hback : ReadsBack levels native value) (hl : levels ≤ target.config.maxDepth) :
    ∃ back, Decode.plainValue target key native = .ok back ∧ Rest.Alike back value := by
  obtain ⟨back, hb, ha⟩ := hback (Decode.guard target) (Nesting.hasRoom_top hl)
  refine ⟨back, ?_, ha⟩
  unfold Decode.plainValue
  rw [hf]
  dsimp only [Option.map_some]
  rw [ht]
  exact hb

theorem plainValue?_atom (h : Native.columnAtom? (target.schema.field? key) value =
    .ok (some native)) : Create.plainValue? target key value = .ok (some native) := by
  unfold Create.plainValue?
  rw [h]

theorem plainValue?_compound (h : Native.columnAtom? (target.schema.field? key) value = .ok none)
    (hp : Plain value) (hd : value.height ≤ target.config.maxDepth) :
    ∃ native, Create.plainValue? target key value = .ok (some native) ∧
      ReadsBack value.height native value := by
  have hroom : (Create.guard target).HasRoom value.height := Nesting.hasRoom_top hd
  obtain ⟨native, hn, hback, _⟩ := nested_plain hp hroom
  refine ⟨native, ?_, hback⟩
  unfold Create.plainValue?
  rw [h]
  exact hn

/-- A value that has no stored form of its own reads back like a nested one. -/
theorem fieldReadsBack_nested (hclass : target.className ≠ Decode.userClass)
    (hkey : ClientKey key) (hf : target.schema.field? key = some field)
    (hpointer : Create.writesPointer target key value = false)
    (hcreate : Create.plainValue? target key value = .ok (some native))
    (ht : Decode.typed? (some field.type) native = .ok none) {levels : Nat}
    (hback : ReadsBack levels native value) (hl : levels ≤ target.config.maxDepth) :
    FieldReadsBack target key value := by
  obtain ⟨back, hdecode, ha⟩ := plainValue_nested hf ht hback hl
  exact fieldReadsBack_own hclass hkey hpointer hcreate hdecode ha

theorem fieldReadsBack_typed (hclass : target.className ≠ Decode.userClass)
    (hkey : ClientKey key) (hf : target.schema.field? key = some field)
    (hpointer : Create.writesPointer target key value = false) (h : TypedReadsBack field value) :
    FieldReadsBack target key value := by
  obtain ⟨native, back, hatom, hread, ha⟩ := h
  have hdecode : Decode.plainValue target key native = .ok back := by
    unfold Decode.plainValue
    rw [hf, Option.map_some, hread]
  refine fieldReadsBack_own hclass hkey hpointer (plainValue?_atom ?_) hdecode ha
  rw [hf]
  exact hatom

/-- A scalar of a type that is stored as it is. -/
theorem fieldReadsBack_scalar (hclass : target.className ≠ Decode.userClass)
    (hdepth : 0 < target.config.maxDepth) (hkey : ClientKey key)
    (hf : target.schema.field? key = some field)
    (hpointer : Create.writesPointer target key value = false)
    (hatom : Native.columnAtom? (some field) value = .ok (some native))
    (ht : Decode.typed? (some field.type) native = .ok none) (hback : ReadsBack 1 native value) :
    FieldReadsBack target key value := by
  refine fieldReadsBack_nested hclass hkey hf hpointer (plainValue?_atom ?_) ht hback hdepth
  rw [hf]
  exact hatom

/-- A pointer has a column that names its field. -/
theorem fieldReadsBack_pointer (hkey : ClientKey key)
    (hf : target.schema.field? key = some field) (ht : field.type = .pointer) {id : String}
    (hdollar : '$' ∉ field.targetOrEmpty.toList)
    (h : Reordered value (Pointer.toEnvelope ⟨field.targetOrEmpty, id⟩)) :
    FieldReadsBack target key value := by
  have htag : value.hasTag Pointer.kind = true := hasTag_reordered h (by simp [typeKey])
  have hpointer : Create.writesPointer target key value = true := by
    unfold Create.writesPointer
    rw [isTruthy_of_hasTag htag, hasTag_ne htag (show Pointer.kind ≠ Bytes.kind by decide), htag]
    simp
  have hcreate : Create.plainValue? target key value =
      .ok (some (Pointer.toNative ⟨field.targetOrEmpty, id⟩)) :=
    plainValue?_atom (columnAtom?_of_shape (shape_pointer h))
  have hread : Decode.pointer? target key (Pointer.toNative ⟨field.targetOrEmpty, id⟩) =
      .ok (some ⟨field.targetOrEmpty, id⟩) := by
    unfold Decode.pointer? Pointer.toNative Pointer.ofNative?
    rw [hf]
    have hcut := Pointer.ofText_text ⟨field.targetOrEmpty, id⟩ hdollar
    simp [ht, hcut, Except.map]
  refine ⟨pointerStart ++ key, Pointer.toNative ⟨field.targetOrEmpty, id⟩,
    Pointer.toEnvelope ⟨field.targetOrEmpty, id⟩, ?_, ?_, h.alike_tagged (by simp [typeKey]),
    .inr rfl⟩
  · rw [column?_client hkey, hcreate]
    unfold Create.plainColumn
    rw [hpointer]
    rfl
  · rw [Decode.placement_pointer, hread]
    rfl

/-- **A field whose value fits its declaration reads back**, unless it is a relation. -/
theorem field_readsBack (hclass : target.className ≠ Decode.userClass)
    (hdepth : 0 < target.config.maxDepth) (hkey : ClientKey key)
    (hf : target.schema.field? key = some field) (hr : field.type ≠ .relation)
    (h : Conforms target.config.maxDepth field value) :
    target.isRelation key value = false ∧ FieldReadsBack target key value := by
  have hrelation : value.hasTag Relation.kind = false → target.isRelation key value = false :=
    isRelation_eq_false hf hr
  have hown : ∀ {kind : String} {payload : Fields Rest}, field.type ≠ .pointer →
      Reordered value (.tagged kind payload) → (typeKey :: Fields.keys payload).Nodup →
        kind ≠ Pointer.kind → kind ≠ Relation.kind →
          target.isRelation key value = false ∧ Create.writesPointer target key value = false :=
    fun ht hv hn hp hk =>
      have htag := hasTag_reordered hv hn
      ⟨hrelation (hasTag_ne htag hk), writesPointer_eq_false hf ht (hasTag_ne htag hp)⟩
  cases h with
  | null _ =>
    refine ⟨hrelation rfl, fieldReadsBack_scalar hclass hdepth hkey hf rfl rfl ?_
      (readsBack_null 0)⟩
    cases field.type <;> rfl
  | string text ht =>
    have hatom : Native.columnAtom? (some field) (.string text) = .ok (some (.string text)) := by
      rw [columnAtom?_of_shape rfl]
      simp [Native.ofColumnShape?, Native.ofText, ht]
    exact ⟨hrelation rfl, fieldReadsBack_scalar hclass hdepth hkey hf
      (writesPointer_eq_false hf (by simp [ht]) rfl) hatom (by rw [ht]; rfl)
      (readsBack_string 0 text)⟩
  | number ht hs =>
    exact ⟨hrelation rfl, fieldReadsBack_scalar hclass hdepth hkey hf
      (writesPointer_eq_false hf (by simp [ht]) rfl) rfl (by rw [ht]; rfl) (readsBack_number 0 hs)⟩
  | bool flag ht =>
    exact ⟨hrelation rfl, fieldReadsBack_scalar hclass hdepth hkey hf
      (writesPointer_eq_false hf (by simp [ht]) rfl) rfl (by rw [ht]; rfl) (readsBack_bool 0 flag)⟩
  | date moment ht hv =>
    obtain ⟨hrel, hpointer⟩ := hown (by simp [ht]) hv (by simp [typeKey]) (by decide) (by decide)
    exact ⟨hrel, fieldReadsBack_scalar hclass hdepth hkey hf hpointer
      (columnAtom?_of_shape (shape_date hv)) (by rw [ht]; rfl) (readsBack_date 0 hv)⟩
  | bytes ht hp hv =>
    obtain ⟨hrel, hpointer⟩ := hown (by simp [ht]) hv (by simp [typeKey]) (by decide) (by decide)
    exact ⟨hrel, fieldReadsBack_typed hclass hkey hf hpointer (typedReadsBack_bytes ht hp hv)⟩
  | geoPoint ht hs hv =>
    obtain ⟨hrel, hpointer⟩ := hown (by simp [ht]) hv (by simp [typeKey]) (by decide) (by decide)
    exact ⟨hrel, fieldReadsBack_typed hclass hkey hf hpointer (typedReadsBack_geoPoint ht hs hv)⟩
  | polygon ht hring hpoints hv =>
    obtain ⟨hrel, hpointer⟩ := hown (by simp [ht]) hv (by simp [typeKey]) (by decide) (by decide)
    exact ⟨hrel, fieldReadsBack_typed hclass hkey hf hpointer
      (typedReadsBack_polygon ht hring hpoints hv)⟩
  | file name ht hv =>
    obtain ⟨hrel, hpointer⟩ := hown (by simp [ht]) hv (by simp [typeKey]) (by decide) (by decide)
    exact ⟨hrel, fieldReadsBack_typed hclass hkey hf hpointer (typedReadsBack_file ht hv)⟩
  | pointer id ht hdollar hv =>
    refine ⟨hrelation ?_, fieldReadsBack_pointer hkey hf ht hdollar hv⟩
    exact hasTag_ne (hasTag_reordered hv (by simp [typeKey])) (by decide)
  | relation ht _ => exact absurd ht hr
  | array ht hitems hd =>
    obtain ⟨native, hcreate, hback⟩ := plainValue?_compound rfl (.array hitems) hd
    exact ⟨hrelation rfl, fieldReadsBack_nested hclass hkey hf
      (writesPointer_eq_false hf (by simp [ht]) rfl) hcreate (by rw [ht]; rfl) hback hd⟩
  | @object members ht hclean htag hop hplain hd =>
    have hkind : ∀ kind, (Rest.object members).hasTag kind = false := by
      intro kind
      simp [Rest.hasTag, Rest.get?, (Fields.get?_eq_none_iff _ _).2 htag]
    obtain ⟨native, hcreate, hback⟩ := plainValue?_compound
      (columnAtom?_of_shape (shape_of_clean hclean htag)) (.object hclean htag hop hplain) hd
    exact ⟨hrelation (hkind _), fieldReadsBack_nested hclass hkey hf
      (writesPointer_eq_false hf (by simp [ht]) (hkind _)) hcreate (by rw [ht]; rfl) hback hd⟩

end

end RestStore
