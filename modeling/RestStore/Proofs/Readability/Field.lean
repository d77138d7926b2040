import RestStore.Proofs.Readability.Conditions
import RestStore.Proofs.Relations
import RestStore.Proofs.RoundTrip.Field
import RestStore.Proofs.Write.Columns

/-!
# Which fields read back

A field that creating an object accepts is written to a column, and the decoder reads the column
exactly under the conditions that `Readable` names: `placement_iff`.

* `plainValue_ok_iff` — ordinary fields; only a polygon can be refused.
* `plainColumn_iff` — ordinary fields and pointers.
* `readable_id_iff`, `readable_pointer_iff`, `readable_polygon_iff` — what this asks of the values
  that clients send for pointers and polygons.
-/

set_option autoImplicit false

namespace RestStore

/-- A field that is stored under its own name, or as a pointer. -/
def IsOrdinary (key : String) : Prop :=
  key ∉ [objectIdKey, "sessionToken", aclKey] ++ timeKeys

instance (key : String) : Decidable (IsOrdinary key) :=
  inferInstanceAs (Decidable (key ∉ [objectIdKey, "sessionToken", aclKey] ++ timeKeys))

/-- A field whose column the decoder returns whatever it holds. -/
def IsUnchecked (target : Target) (key : String) : Prop :=
  key = "timesUsed" ∨ key = "times_used" ∨
    key = Decode.loginDataKey ∧ target.className = Decode.userClass

/-- What a stored field must hold so that the decoder accepts its column. -/
structure Readable (target : Target) (key : String) (value : Rest) : Prop where
  /-- An id is a text or a number. -/
  id : key = objectIdKey → (∃ text, value = .string text) ∨ ∃ number, value = .number number
  /-- An instant is sent as one. -/
  instant : key ∈ timeKeys → ReadsAsInstant value
  /-- What is stored as a pointer under a field that is declared as one names the declared class. -/
  pointer : IsOrdinary key → Create.writesPointer target key value = true →
    ∀ field, target.schema.field? key = some field → field.type = .pointer →
      ∀ native, Create.plainValue? target key value = .ok (some native) →
        NamesClass field.targetOrEmpty native
  /-- What is stored under a field that is declared as a polygon stays on the globe. -/
  polygon : IsOrdinary key → ¬IsUnchecked target key →
    Create.writesPointer target key value = false →
      target.schema.fieldIs key .polygon = true →
        ∀ native, Create.plainValue? target key value = .ok (some native) → OnGlobe native

section

variable {target : Target} {key : String} {value : Rest} {native : Native}

theorem IsOrdinary.not_id (h : IsOrdinary key) : key ≠ objectIdKey := by
  rintro rfl
  exact absurd h (by decide)

theorem IsOrdinary.not_time (h : IsOrdinary key) : key ∉ timeKeys :=
  fun ht => h (List.mem_append_right _ ht)

/-- An ordinary field that is stored under its own name. -/
theorem Readable.of_own (hkey : IsOrdinary key)
    (hw : Create.writesPointer target key value = false)
    (hpolygon : ¬IsUnchecked target key → target.schema.fieldIs key .polygon = true →
      ∀ native, Create.plainValue? target key value = .ok (some native) → OnGlobe native) :
    Readable target key value := by
  refine ⟨fun he => absurd he hkey.not_id, fun ht => absurd ht hkey.not_time, fun _ hf => ?_,
    fun _ hu _ => hpolygon hu⟩
  rw [hw] at hf
  cases hf

/-- An ordinary field that is stored as a pointer. -/
theorem Readable.of_pointer (hkey : IsOrdinary key)
    (hw : Create.writesPointer target key value = true)
    (hpointer : ∀ field, target.schema.field? key = some field → field.type = .pointer →
      ∀ native, Create.plainValue? target key value = .ok (some native) →
        NamesClass field.targetOrEmpty native) :
    Readable target key value := by
  refine ⟨fun he => absurd he hkey.not_id, fun ht => absurd ht hkey.not_time, fun _ _ => hpointer,
    fun _ _ hf => ?_⟩
  rw [hw] at hf
  cases hf

/-- An ordinary field that is not stored at all. -/
theorem Readable.of_absent (hkey : IsOrdinary key)
    (h : Create.plainValue? target key value = .ok none) : Readable target key value := by
  refine ⟨fun he => absurd he hkey.not_id, fun ht => absurd ht hkey.not_time,
    fun _ _ _ _ _ _ hs => ?_, fun _ _ _ _ _ hs => ?_⟩
  · rw [h] at hs
    cases hs
  · rw [h] at hs
    cases hs

/-- A field without a check of its own is readable. -/
theorem Readable.of_fixed (hid : key ≠ objectIdKey) (htime : key ∉ timeKeys)
    (hkey : ¬IsOrdinary key) : Readable target key value :=
  ⟨fun he => absurd he hid, fun ht => absurd ht htime, fun ho => absurd ho hkey,
    fun ho => absurd ho hkey⟩

/-! ## Fixed columns -/

theorem nested_ok {levels : Nat} (h : native.Fits levels) (hl : levels ≤ target.config.maxDepth) :
    ∃ back, Decode.nested target native = .ok back :=
  Rest.ofNative_of_fits h (Nesting.hasRoom_top hl)

theorem placement_id : Decode.placement target idColumn native =
    (Decode.idText native).map fun id => .field objectIdKey (.string id) := rfl

theorem placement_session : Decode.placement target "_session_token" native =
    (Decode.nested target native).map (.field "sessionToken") := rfl

theorem placement_time {column : String} (h : (key, column) ∈ Create.timeColumns) :
    (∃ placement, Decode.placement target column native = .ok placement) ↔
      ∃ instant, Decode.instant column native = .ok instant := by
  simp only [Create.timeColumns, List.mem_cons, List.not_mem_nil, or_false, Prod.mk.injEq] at h
  rcases h with ⟨_, rfl⟩ | ⟨_, rfl⟩ | ⟨_, rfl⟩ | ⟨_, rfl⟩ <;> exact map_ok_iff

theorem placement_unchecked (h : IsUnchecked target key) {levels : Nat}
    (hn : native.Fits levels) (hl : levels ≤ target.config.maxDepth) :
    ∃ placement, Decode.placement target key native = .ok placement := by
  rcases h with rfl | rfl | ⟨rfl, hclass⟩
  · exact map_ok_iff.2 (nested_ok hn hl)
  · exact map_ok_iff.2 (nested_ok hn hl)
  · refine ⟨.nowhere, ?_⟩
    unfold Decode.placement
    rw [hclass]
    rfl

/-! ## Ordinary fields -/

theorem typed?_ok_iff (type : FieldType) :
    (∃ back, Decode.typed? (some type) native = .ok back) ↔ (type = .polygon → OnGlobe native) := by
  by_cases ht : type = .polygon
  · subst ht
    show (∃ back, (Polygon.ofNative? native).map _ = .ok back) ↔ _
    rw [map_ok_iff, ofNative?_iff]
    exact ⟨fun hglobe _ => hglobe, fun hglobe => hglobe rfl⟩
  · refine ⟨fun _ h => absurd h ht, fun _ => ?_⟩
    cases type <;> first
      | exact absurd rfl ht
      | exact ⟨_, rfl⟩

/-- **An ordinary column is read**, but for a polygon that leaves the globe. -/
theorem plainValue_ok_iff {levels : Nat} (hn : native.Fits levels)
    (hl : levels ≤ target.config.maxDepth) :
    (∃ back, Decode.plainValue target key native = .ok back) ↔
      (target.schema.fieldIs key .polygon = true → OnGlobe native) := by
  have htyped : (∃ back, Decode.plainValue target key native = .ok back) ↔
      ∃ back, Decode.typed? ((target.schema.field? key).map (·.type)) native = .ok back := by
    unfold Decode.plainValue
    cases Decode.typed? ((target.schema.field? key).map (·.type)) native with
    | error failure => simp
    | ok back =>
      cases back with
      | none => exact ⟨fun _ => ⟨none, rfl⟩, fun _ => nested_ok hn hl⟩
      | some value => simp
  rw [htyped]
  cases hf : target.schema.field? key with
  | none =>
    unfold Schema.fieldIs
    rw [hf]
    refine ⟨fun _ h => ?_, fun _ => ⟨none, rfl⟩⟩
    cases h
  | some field =>
    rw [Option.map_some, typed?_ok_iff, Schema.fieldIs_of_field? hf, beq_iff_eq]

theorem plainValue?_fits (h : Create.plainValue? target key value = .ok (some native)) :
    native.Fits (value.height + 1) := by
  unfold Create.plainValue? at h
  split at h
  · cases h
  · rename_i atom ha
    cases h
    exact Native.columnAtom?_fits ha
  · exact (Native.nested_fits h).mono (Nat.le_succ _)

/-- **The column of an ordinary field is read** exactly if a pointer in it names the declared class
and a polygon in it stays on the globe. -/
theorem plainColumn_iff (hs : hasStart "_" key = false) (hkey : IsOrdinary key)
    (hd : value.height < target.config.maxDepth)
    (h : Create.plainValue? target key value = .ok (some native)) :
    (∃ placement, Decode.placement target (Create.plainColumn target key value) native =
        .ok placement) ↔ Readable target key value := by
  have hfits := plainValue?_fits h
  have hstored : ∀ other, Create.plainValue? target key value = .ok (some other) →
      other = native := by
    intro other ho
    rw [h] at ho
    cases ho
    rfl
  unfold Create.plainColumn
  cases hw : Create.writesPointer target key value with
  | true =>
    rw [if_pos rfl, Decode.placement_pointer, map_ok_iff]
    constructor
    · intro hread
      refine .of_pointer hkey hw fun field hf ht other ho => ?_
      rw [hstored other ho]
      exact (pointer?_iff hf ht).1 hread
    · intro hr
      cases hp : target.schema.fieldIs key .pointer with
      | false => exact ⟨none, pointer?_of_not_pointer native hp⟩
      | true =>
        obtain ⟨field, hf, ht⟩ := (Option.any_eq_true _ _).1 hp
        have ht' : field.type = .pointer := by simpa using ht
        exact (pointer?_iff hf ht').2 (hr.pointer hkey hw field hf ht' native h)
  | false =>
    rw [if_neg (by decide)]
    by_cases hu : IsUnchecked target key
    · exact ⟨fun _ => .of_own hkey hw fun hn => absurd hu hn,
        fun _ => placement_unchecked hu hfits hd⟩
    · have hfixed : key ∉ Decode.fixedFields := by
        unfold IsUnchecked at hu
        have htime := hkey.not_time
        simp only [timeKeys, List.mem_cons, List.not_mem_nil, or_false, not_or] at hu htime
        simp [Decode.fixedFields, htime, hu]
      rw [Decode.placement_plain hs hfixed fun hl => hu (.inr (.inr hl)), map_ok_iff,
        plainValue_ok_iff hfits hd]
      constructor
      · intro hpolygon
        refine .of_own hkey hw fun _ hf other ho => ?_
        rw [hstored other ho]
        exact hpolygon hf
      · intro hr hf
        exact hr.polygon hkey hu hw hf native h

/-! ## Every field -/

/-- The time column of a client's own field names one of the fields of instants. -/
theorem mem_timeKeys {column : String} (h : (key, column) ∈ Create.timeColumns) :
    key ∈ timeKeys := by
  simp only [Create.timeColumns, List.mem_cons, List.not_mem_nil, or_false, Prod.mk.injEq] at h
  rcases h with ⟨rfl, _⟩ | ⟨rfl, _⟩ | ⟨rfl, _⟩ | ⟨rfl, _⟩ <;> decide

/-- **A stored field is read** exactly if it is readable. -/
theorem placement_iff (hs : hasStart "_" key = false) (hp : key ≠ aclKey)
    (hd : value.height < target.config.maxDepth) {column : Option (String × Native)}
    (h : Create.column? target key value = .ok column) :
    (∀ own, column = some own → ∃ placement,
      Decode.placement target own.1 own.2 = .ok placement) ↔ Readable target key value := by
  rcases Create.column?_cases target value hs with ⟨rfl, he⟩ | ⟨rfl, he⟩ | ⟨name, hname, he⟩ |
    ⟨hkey, he⟩
  · rw [he] at h
    obtain ⟨native, hn, rfl⟩ := Outcome.map_eq_ok.1 h
    simp only [Option.some.injEq, forall_eq']
    rw [placement_id, map_ok_iff, idText_iff hn]
    constructor
    · intro hid
      exact ⟨fun _ => hid, fun ht => absurd ht (by decide), fun ho => absurd ho (by decide),
        fun ho => absurd ho (by decide)⟩
    · intro hr
      exact hr.id rfl
  · rw [he] at h
    obtain ⟨native, hn, rfl⟩ := Outcome.map_eq_ok.1 h
    simp only [Option.some.injEq, forall_eq']
    rw [placement_session, map_ok_iff]
    exact ⟨fun _ => .of_fixed (by decide) (by decide) (by decide),
      fun _ => nested_ok (Native.verbatim_fits hn) (Nat.le_of_lt hd)⟩
  · rw [he] at h
    obtain ⟨native, hn, rfl⟩ := Outcome.map_eq_ok.1 h
    simp only [Option.some.injEq, forall_eq']
    rw [placement_time hname, instant_iff hn]
    have htime := mem_timeKeys hname
    constructor
    · intro hread
      have hid : key ≠ objectIdKey := by
        rintro rfl
        exact absurd htime (by decide)
      have hordinary : ¬IsOrdinary key := fun ho => ho (List.mem_append_right _ htime)
      exact ⟨fun hk => absurd hk hid, fun _ => hread, fun ho => absurd ho hordinary,
        fun ho => absurd ho hordinary⟩
    · intro hr
      exact hr.instant htime
  · have hordinary : IsOrdinary key := by
      simp only [List.mem_cons, List.not_mem_nil, or_false, not_or] at hkey
      simp [IsOrdinary, timeKeys, hkey, hp]
    rw [he] at h
    split at h
    · cases h
    · obtain ⟨stored, hstored, rfl⟩ := Outcome.map_eq_ok.1 h
      cases stored with
      | none =>
        refine ⟨fun _ => .of_absent hordinary hstored, fun _ own ho => ?_⟩
        cases ho
      | some native =>
        simp only [Option.map_some, Option.some.injEq, forall_eq']
        exact plainColumn_iff hs hordinary hd hstored

/-! ## Pointers and polygons as they are sent -/

/-- A value that is stored for a declared pointer is readable exactly if it names the class. -/
theorem readable_iff_namesClass {field : FieldSchema} (hkey : IsOrdinary key)
    (hf : target.schema.field? key = some field) (ht : field.type = .pointer)
    (hw : Create.writesPointer target key value = true)
    (h : Create.plainValue? target key value = .ok (some native)) :
    Readable target key value ↔ NamesClass field.targetOrEmpty native := by
  constructor
  · intro hr
    exact hr.pointer hkey hw field hf ht native h
  · intro hn
    refine .of_pointer hkey hw fun field' hf' _ native' h' => ?_
    rw [hf] at hf'
    rw [h] at h'
    cases hf'
    cases h'
    exact hn

/-- An id is readable for every class whose name has no dollar sign. -/
theorem readable_id_iff {field : FieldSchema} {id : String} (hkey : IsOrdinary key)
    (hf : target.schema.field? key = some field) (ht : field.type = .pointer) (hid : id ≠ "") :
    Readable target key (.string id) ↔ '$' ∉ field.targetOrEmpty.toList := by
  have hw : Create.writesPointer target key (.string id) = true := by
    unfold Create.writesPointer
    rw [Schema.fieldIs_of_field? hf, ht]
    simpa [Rest.isTruthy, Rest.hasTag, Rest.get?] using hid
  have hstored : Create.plainValue? target key (.string id) =
      .ok (some (.string (Pointer.text ⟨field.targetOrEmpty, id⟩))) := by
    refine plainValue?_atom ?_
    rw [hf]
    simp [Native.columnAtom?, Rest.shape, Native.ofColumnShape?, Native.ofText, ht, Pointer.text]
  rw [readable_iff_namesClass hkey hf ht hw hstored, namesClass_id_iff]

/-- **A pointer is readable** exactly if it names the declared class. -/
theorem readable_pointer_iff {field : FieldSchema} {pointer : Pointer} (hkey : IsOrdinary key)
    (hf : target.schema.field? key = some field) (ht : field.type = .pointer)
    (hm : '$' ∉ pointer.className.toList) :
    Readable target key pointer.toEnvelope ↔ pointer.className = field.targetOrEmpty := by
  have hw : Create.writesPointer target key pointer.toEnvelope = true := by
    unfold Create.writesPointer
    rw [Schema.fieldIs_of_field? hf, ht]
    rfl
  have hstored : Create.plainValue? target key pointer.toEnvelope =
      .ok (some pointer.toNative) := by
    have hshape : pointer.toEnvelope.shape = .ok (.pointer pointer) :=
      shape_pointer (.intro (.refl _))
    exact plainValue?_atom (columnAtom?_of_shape hshape)
  rw [readable_iff_namesClass hkey hf ht hw hstored, namesClass_pointer_iff hm]

/-- **A polygon is readable** exactly if its ring lies on the globe. -/
theorem readable_polygon_iff {field : FieldSchema} {polygon : Polygon} {points : List GeoPoint}
    (hkey : IsOrdinary key) (hu : ¬IsUnchecked target key)
    (hf : target.schema.field? key = some field) (ht : field.type = .polygon)
    (hring : polygon.ring = .ok points) (hp : ∀ point ∈ points, point.Storable) :
    Readable target key polygon.toEnvelope ↔ ∀ point ∈ points, point.validate = .ok () := by
  have hw : Create.writesPointer target key polygon.toEnvelope = false :=
    writesPointer_eq_false hf (by rw [ht]; decide) rfl
  have hfield : target.schema.fieldIs key .polygon = true := by
    rw [Schema.fieldIs_of_field? hf, ht]
    rfl
  have hstored : Create.plainValue? target key polygon.toEnvelope =
      .ok (some (Polygon.documentOfRing points)) := by
    have hshape : polygon.toEnvelope.shape = .ok (.polygon polygon) :=
      shape_polygon (.intro (.refl _))
    refine plainValue?_atom ?_
    rw [columnAtom?_of_shape hshape]
    simp [Native.ofColumnShape?, Polygon.toNative, hring, Except.map]
  rw [← onGlobe_ring_iff hp]
  constructor
  · intro hr
    exact hr.polygon hkey hu hw hfield _ hstored
  · intro hglobe
    refine .of_own hkey hw fun _ _ native' h' => ?_
    rw [hstored] at h'
    cases h'
    exact hglobe

end

end RestStore
