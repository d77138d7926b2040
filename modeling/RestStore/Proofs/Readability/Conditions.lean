import Mathlib.Data.List.TakeWhile
import RestStore.Proofs.Calendar.Unread
import RestStore.Proofs.Native.Height
import RestStore.Proofs.Placement
import RestStore.Proofs.RoundTrip.Plain

/-!
# What the decoder refuses

The decoder checks four kinds of columns, and each check has an exact condition on what was stored:

* `idText_iff` — an id is a text or a number.
* `instant_iff` — an instant was sent as a text, as an envelope, or as a file named like a date.
* `pointer?_iff` — a pointer names the declared class.
* `ofNative?_iff` — a polygon lies on the globe, as far as it can be read.
-/

set_option autoImplicit false

namespace RestStore

/-! ## Pointers -/

/-- A stored value that reads back in the column of a pointer: nothing, or a pointer to the declared
class. -/
def NamesClass (className : String) (native : Native) : Prop :=
  native = .null ∨
    '$' ∉ className.toList ∧ ∃ id, native = .string (Pointer.text ⟨className, id⟩)

theorem splitAtFirst_eq_some {mark : Char} : ∀ {cs before after : List Char},
    splitAtFirst mark cs = some (before, after) → cs = before ++ mark :: after ∧ mark ∉ before
  | [], _, _, h => nomatch h
  | c :: rest, before, after, h => by
    unfold splitAtFirst at h
    split at h
    · rename_i hc
      cases h
      exact ⟨by rw [hc]; rfl, by simp⟩
    · rename_i hc
      obtain ⟨⟨first, second⟩, hs, he⟩ := Option.map_eq_some_iff.1 h
      cases he
      obtain ⟨rfl, hm⟩ := splitAtFirst_eq_some hs
      refine ⟨rfl, ?_⟩
      simp only [List.mem_cons, not_or]
      exact ⟨Ne.symm hc, hm⟩

/-- The text of a pointer determines it. -/
theorem eq_text_of_ofText {text : String} {pointer : Pointer}
    (h : Pointer.ofText text = .ok pointer) :
    text = pointer.text ∧ '$' ∉ pointer.className.toList := by
  unfold Pointer.ofText at h
  split at h
  · rename_i before after hs
    cases h
    obtain ⟨he, hm⟩ := splitAtFirst_eq_some hs
    refine ⟨?_, by simpa using hm⟩
    apply String.toList_inj.mp
    simp [Pointer.text, he]
  · cases h

/-- An id that is written for a pointer names the declared class. -/
theorem namesClass_id_iff {className id : String} :
    NamesClass className (.string (Pointer.text ⟨className, id⟩)) ↔ '$' ∉ className.toList := by
  unfold NamesClass
  constructor
  · rintro (h | ⟨hm, _⟩)
    · cases h
    · exact hm
  · intro hm
    exact .inr ⟨hm, id, rfl⟩

/-- A pointer names its own class only. -/
theorem namesClass_pointer_iff {className : String} {pointer : Pointer}
    (h : '$' ∉ pointer.className.toList) :
    NamesClass className pointer.toNative ↔ pointer.className = className := by
  unfold NamesClass Pointer.toNative
  constructor
  · rintro (hnull | ⟨hm, id, he⟩)
    · cases hnull
    · have hcut := Pointer.ofText_text pointer h
      rw [Native.string.inj he, Pointer.ofText_text _ hm] at hcut
      cases hcut
      rfl
  · rintro rfl
    exact .inr ⟨h, pointer.objectId, rfl⟩

/-- **The column of a declared pointer reads back** exactly if it names the declared class. -/
theorem pointer?_iff {target : Target} {key : String} {field : FieldSchema} {native : Native}
    (hf : target.schema.field? key = some field) (ht : field.type = .pointer) :
    (∃ pointer, Decode.pointer? target key native = .ok pointer) ↔
      NamesClass field.targetOrEmpty native := by
  unfold Decode.pointer? NamesClass
  rw [hf]
  cases native with
  | null => simp
  | string text =>
    simp only [ht, Pointer.ofNative?, ne_eq, not_true_eq_false, if_false, reduceCtorEq, false_or,
      Native.string.injEq]
    cases hp : Pointer.ofText text with
    | error failure =>
      simp only [Except.map]
      constructor
      · rintro ⟨_, h⟩
        cases h
      · rintro ⟨hm, id, rfl⟩
        have hcut := Pointer.ofText_text ⟨field.targetOrEmpty, id⟩ hm
        rw [hcut] at hp
        cases hp
    | ok pointer =>
      obtain ⟨rfl, hm⟩ := eq_text_of_ofText hp
      simp only [Except.map]
      constructor
      · rintro ⟨_, h⟩
        split at h
        · rename_i hc
          exact ⟨hc ▸ hm, pointer.objectId, by rw [← hc]⟩
        · cases h
      · rintro ⟨hm', id, he⟩
        have hcut := Pointer.ofText_text ⟨field.targetOrEmpty, id⟩ hm'
        rw [← he, hp] at hcut
        cases hcut
        exact ⟨some ⟨field.targetOrEmpty, id⟩, if_pos rfl⟩
  | bool _ | int32 _ | int64 _ | double _ | date _ | binary _ _ | objectId _ | regex _ _ | array _
  | document _ | opaqueValue _ => simp [ht, Pointer.ofNative?]

/-- A column that is not declared as a pointer is left out and never refused. -/
theorem pointer?_of_not_pointer {target : Target} {key : String} (native : Native)
    (h : target.schema.fieldIs key .pointer = false) :
    Decode.pointer? target key native = .ok none := by
  unfold Schema.fieldIs at h
  unfold Decode.pointer?
  cases hf : target.schema.field? key with
  | none => rfl
  | some field =>
    rw [hf] at h
    have ht : field.type ≠ .pointer := by simpa using h
    cases native <;> simp [ht]

/-! ## Polygons -/

/-- The points of a stored polygon lie on the globe, up to the first that is no pair of numbers. -/
def OnGlobe (native : Native) : Prop :=
  ∀ columns points, native = .document columns → Polygon.storedRing? columns = some points →
    ∀ pair ∈ points.takeWhile fun pair => (GeoPoint.ofNative? pair).isSome,
      ∀ point, GeoPoint.ofNative? pair = some point → point.validate = .ok ()

theorem verticesOfNative?_iff : ∀ (points : List Native),
    (∃ vertices, Polygon.verticesOfNative? points = .ok vertices) ↔
      ∀ pair ∈ points.takeWhile fun pair => (GeoPoint.ofNative? pair).isSome,
        ∀ point, GeoPoint.ofNative? pair = some point → point.validate = .ok ()
  | [] => by simp [Polygon.verticesOfNative?]
  | pair :: rest => by
    have ih := verticesOfNative?_iff rest
    unfold Polygon.verticesOfNative?
    rw [List.takeWhile_cons]
    cases hp : GeoPoint.ofNative? pair with
    | none => simp
    | some point =>
      simp only [Option.isSome_some, if_true, List.forall_mem_cons, hp, Option.some.injEq,
        forall_eq']
      rw [← ih]
      cases hv : point.validate with
      | error failure => simp
      | ok _ =>
        simp only [true_and]
        constructor
        · rintro ⟨_, h⟩
          obtain ⟨vertices, hr, _⟩ := Outcome.map_eq_ok.1 h
          exact ⟨vertices, hr⟩
        · rintro ⟨vertices, hr⟩
          exact ⟨_, Outcome.map_eq_ok.2 ⟨vertices, hr, rfl⟩⟩

/-- **A stored polygon is refused** exactly if it leaves the globe. -/
theorem ofNative?_iff (native : Native) :
    (∃ polygon, Polygon.ofNative? native = .ok polygon) ↔ OnGlobe native := by
  unfold OnGlobe Polygon.ofNative?
  cases native with
  | document columns =>
    dsimp only
    cases hs : Polygon.storedRing? columns with
    | none =>
      refine ⟨fun _ columns' points he hs' => ?_, fun _ => ⟨none, rfl⟩⟩
      cases he
      rw [hs] at hs'
      cases hs'
    | some points =>
      have hiff := verticesOfNative?_iff points
      constructor
      · rintro ⟨_, h⟩ columns' points' he hs'
        cases he
        rw [hs] at hs'
        cases hs'
        obtain ⟨vertices, hv, _⟩ := Outcome.map_eq_ok.1 h
        exact hiff.1 ⟨vertices, hv⟩
      · intro h
        obtain ⟨vertices, hv⟩ := hiff.2 (h columns points rfl hs)
        exact ⟨_, Outcome.map_eq_ok.2 ⟨vertices, hv, rfl⟩⟩
  | null | bool _ | string _ | int32 _ | int64 _ | double _ | date _ | binary _ _ | objectId _
  | regex _ _ | array _ | opaqueValue _ => simp

/-- The ring of a polygon is on the globe if all its points are. -/
theorem onGlobe_ring_iff {points : List GeoPoint} (h : ∀ point ∈ points, point.Storable) :
    OnGlobe (Polygon.documentOfRing points) ↔ ∀ point ∈ points, point.validate = .ok () := by
  have hread : ∀ point ∈ points, GeoPoint.ofNative? point.toNative = some point :=
    fun point hp => ofNative?_toNative_geoPoint (h point hp)
  have htake : (points.map (·.toNative)).takeWhile
      (fun pair => (GeoPoint.ofNative? pair).isSome) = points.map (·.toNative) := by
    rw [List.takeWhile_eq_self_iff]
    intro pair hp
    obtain ⟨point, hm, rfl⟩ := List.mem_map.1 hp
    rw [hread point hm]
    rfl
  unfold OnGlobe
  constructor
  · intro hglobe point hp
    refine hglobe _ _ rfl rfl point.toNative ?_ point (hread point hp)
    rw [htake]
    exact List.mem_map_of_mem hp
  · intro hvalid columns stored he hs pair hp point ho
    cases he
    cases hs
    rw [htake] at hp
    obtain ⟨other, hm, rfl⟩ := List.mem_map.1 hp
    rw [hread other hm] at ho
    cases ho
    exact hvalid point hm

/-! ## Ids -/

/-- **An id is read** exactly if a text or a number was stored as given. -/
theorem idText_iff {guard : Nesting} {value : Rest} {native : Native}
    (h : Native.verbatim guard value = .ok native) :
    (∃ id, Decode.idText native = .ok id) ↔
      (∃ text, value = .string text) ∨ ∃ number, value = .number number := by
  cases value with
  | null | bool _ | string _ =>
    rw [Native.verbatim] at h
    split at h
    · cases h
    · cases h
      simp [Decode.idText]
  | number number =>
    rw [Native.verbatim] at h
    split at h
    · cases h
    · cases h
      have hread : ∃ id, Decode.idText (.ofNumber number) = .ok id := by
        cases number with
        | double d => exact ⟨_, rfl⟩
        | integer i =>
          simp only [Native.ofNumber, Native.ofInt]
          split
          · exact ⟨_, rfl⟩
          · split <;> exact ⟨_, rfl⟩
      simp [hread]
  | array items =>
    rw [Native.verbatim] at h
    split at h
    · cases h
    · obtain ⟨natives, _, rfl⟩ := Outcome.map_eq_ok.1 h
      simp [Decode.idText]
  | object members =>
    rw [Native.verbatim] at h
    split at h
    · cases h
    · obtain ⟨columns, _, rfl⟩ := Outcome.map_eq_ok.1 h
      simp [Decode.idText]

/-! ## Instants -/

/-- A value under the name of an instant that reads back: a text, the envelope of a date, or a file
with a date for its name. -/
def ReadsAsInstant (value : Rest) : Prop :=
  (∃ text, value = .string text) ∨ (∃ instant, value.shape = .ok (.date instant)) ∨
    ∃ file, value.shape = .ok (.file file) ∧ (Iso.parse? file.name).isSome = true

theorem ofText_iff (text : String) :
    (∃ instant, Instant.ofText text = .ok instant) ↔ (Iso.parse? text).isSome = true := by
  unfold Instant.ofText
  cases Iso.parse? text <;> simp

theorem instant_ofNumber (column : String) (number : Number) :
    Decode.instant column (.ofNumber number) = .error (.decode (.badDate column)) := by
  cases number with
  | double d => rfl
  | integer i =>
    simp only [Native.ofNumber, Native.ofInt]
    split
    · rfl
    · split <;> rfl

/-- Of the atoms that are no texts, dates are read as instants, and files that are named as one. -/
theorem instant_ofColumnShape_iff {field : Option FieldSchema} {shape : Shape} {native : Native}
    (column : String) (hne : ∀ text, shape ≠ .string text)
    (h : Native.ofColumnShape? field shape = .ok (some native)) :
    (∃ instant, Decode.instant column native = .ok instant) ↔
      (∃ instant, shape = .date instant) ∨
        ∃ file, shape = .file file ∧ (Iso.parse? file.name).isSome = true := by
  cases shape with
  | string text => exact absurd rfl (hne text)
  | date instant =>
    cases h
    exact ⟨fun _ => .inl ⟨instant, rfl⟩, fun _ => ⟨_, rfl⟩⟩
  | file file =>
    cases h
    show (∃ instant, Instant.ofText file.name = .ok instant) ↔ _
    rw [ofText_iff]
    simp
  | pointer pointer =>
    cases h
    show (∃ instant, Instant.ofText pointer.text = .ok instant) ↔ _
    rw [ofText_iff, Iso.parse?_eq_none (by simp [Pointer.text])]
    simp
  | number number =>
    cases h
    simp [instant_ofNumber]
  | bytes bytes =>
    obtain ⟨stored, hstored, hn⟩ := Outcome.map_eq_ok.1 h
    cases hn
    obtain ⟨payload, rfl⟩ := Native.bytes_eq_binary hstored
    simp [Decode.instant]
  | polygon polygon =>
    obtain ⟨stored, hstored, hn⟩ := Outcome.map_eq_ok.1 h
    cases hn
    obtain ⟨points, _, rfl⟩ := Native.polygon_eq_ring hstored
    simp [Decode.instant, Polygon.documentOfRing]
  | geoPoint point =>
    cases h
    simp [Decode.instant, GeoPoint.toNative]
  | null | bool _ =>
    cases h
    simp [Decode.instant]
  | relation _ | regex _ | array _ | object _ => cases h

/-- **An instant is read** exactly if it was sent as one. -/
theorem instant_iff {target : Target} {key column : String} {value : Rest} {native : Native}
    (h : Create.timeValue target key value = .ok native) :
    (∃ instant, Decode.instant column native = .ok instant) ↔ ReadsAsInstant value := by
  unfold ReadsAsInstant
  unfold Create.timeValue at h
  split at h
  · rename_i text
    obtain ⟨instant, _, rfl⟩ := Outcome.map_eq_ok.1 h
    exact ⟨fun _ => .inl ⟨text, rfl⟩, fun _ => ⟨_, rfl⟩⟩
  · rename_i hstring
    have hne : ¬∃ text, value = .string text := fun ⟨text, he⟩ => hstring text he
    split at h
    · cases h
    · rename_i atom ha
      cases h
      unfold Native.columnAtom? at ha
      split at ha
      · cases ha
      · rename_i shape hs
        have hshape : ∀ text, shape ≠ .string text := by
          rintro text rfl
          exact hne ⟨text, eq_string_of_shape hs⟩
        rw [instant_ofColumnShape_iff column hshape ha, hs]
        simp only [hne, false_or, Except.ok.injEq]
    · cases h

end RestStore
