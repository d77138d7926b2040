import RestStore.Proofs.Native.Height
import RestStore.Proofs.Rest.Shape
import RestStore.Proofs.RoundTrip.Given

/-!
# Values that were written

What is stored inside an array or object holds nothing opaque, and no document in it is an envelope
of a date with an instant for its text: dates are atoms and become instants themselves, and an
object that is walked has no such tag. Reading such a value therefore goes down one level for each
of its own levels, and is refused just where there is no room for them: `ofNative_written`.

* `Written` — such values; `nested_written` — every nested value is one.
* `fits_array_iff`, `fits_document_iff`, `fits_scalar_iff` — the levels of a value by its kind.
-/

set_option autoImplicit false

namespace RestStore

namespace Native

/-! ## Levels -/

section

variable {levels : Nat}

theorem Fits.pos {native : Native} (h : Fits levels native) : 0 < levels := by
  cases h <;> omega

theorem fits_scalar_iff {native : Native} (h : native.IsScalar) :
    Fits levels native ↔ 0 < levels :=
  ⟨Fits.pos, Fits.of_isScalar h⟩

theorem fits_array_iff {items : List Native} :
    Fits (levels + 1) (.array items) ↔ ∀ item ∈ items, Fits levels item := by
  constructor
  · intro h
    cases h with
    | scalar hs => exact hs.elim
    | array hitems => exact hitems
  · exact .array

theorem fits_document_iff {columns : List (String × Native)} :
    Fits (levels + 1) (.document columns) ↔ ∀ column ∈ columns, Fits levels column.2 := by
  constructor
  · intro h
    cases h with
    | scalar hs => exact hs.elim
    | document hcolumns => exact hcolumns
  · exact .document

end

/-! ## Reading what was written -/

/-- A stored value without anything opaque, and without an instant for the text of a date. -/
inductive Written : Native → Prop
  | scalar {native : Native} : native.IsScalar → Written native
  | array {items : List Native} : (∀ item ∈ items, Written item) → Written (.array items)
  | document {columns : List (String × Native)} : (∀ column ∈ columns, Written column.2) →
    (∀ column ∈ columns,
      Rest.storedIso? (Rest.isStoredDate columns) column.1 column.2 = none) →
    Written (.document columns)

end Native

namespace Rest

mutual

/-- **A written value is refused where there is no room for its levels.** -/
theorem ofNative_eq_error : ∀ {native : Native} {guard : Nesting}, native.Written →
    ¬native.Fits guard.room →
      ofNative guard native = .error (.tooDeep guard.origin guard.bound) := by
  intro native guard hw hfits
  rcases guard.enter_cases with ⟨hfull, hi⟩ | ⟨inner, hi, hroom, horigin, hbound⟩
  · rw [ofNative, hi]
  · rw [hroom] at hfits
    cases native with
    | array items =>
      cases hw with
      | scalar hs => exact hs.elim
      | array hitems =>
        rw [Native.fits_array_iff] at hfits
        rw [ofNative, hi]
        dsimp only
        rw [ofItems_eq_error hitems hfits, horigin, hbound]
        rfl
    | document columns =>
      cases hw with
      | scalar hs => exact hs.elim
      | document hcolumns hplain =>
        rw [Native.fits_document_iff] at hfits
        rw [ofNative, hi]
        dsimp only
        rw [ofColumns_eq_error hcolumns hplain hfits, horigin, hbound]
        rfl
    | opaqueValue kind =>
      cases hw with
      | scalar hs => exact hs.elim
    | null | bool _ | string _ | int32 _ | int64 _ | double _ | date _ | binary _ _ | objectId _
    | regex _ _ => exact absurd (.scalar trivial) hfits

theorem ofItems_eq_error : ∀ {items : List Native} {guard : Nesting},
    (∀ item ∈ items, item.Written) → ¬(∀ item ∈ items, item.Fits guard.room) →
      ofItems guard items = .error (.tooDeep guard.origin guard.bound)
  | [], _, _, hfits => absurd (fun _ hm => nomatch hm) hfits
  | item :: rest, guard, hw, hfits => by
    rw [ofItems]
    by_cases hfirst : item.Fits guard.room
    · obtain ⟨value, hv⟩ := ofNative_of_fits hfirst (Nesting.hasRoom_room hfirst.pos)
      have hrest : ¬∀ other ∈ rest, Native.Fits guard.room other :=
        fun h => hfits (List.forall_mem_cons.2 ⟨hfirst, h⟩)
      rw [hv]
      dsimp only
      rw [ofItems_eq_error (fun other ho => hw other (List.mem_cons_of_mem _ ho)) hrest]
      rfl
    · rw [ofNative_eq_error (hw item List.mem_cons_self) hfirst]

theorem ofColumns_eq_error : ∀ {columns : List (String × Native)} {storedDate : Bool}
    {guard : Nesting}, (∀ column ∈ columns, column.2.Written) →
      (∀ column ∈ columns, storedIso? storedDate column.1 column.2 = none) →
        ¬(∀ column ∈ columns, column.2.Fits guard.room) →
          ofColumns guard storedDate columns = .error (.tooDeep guard.origin guard.bound)
  | [], _, _, _, _, hfits => absurd (fun _ hm => nomatch hm) hfits
  | (key, native) :: rest, storedDate, guard, hw, hplain, hfits => by
    have hnone : storedIso? storedDate key native = none := hplain (key, native) List.mem_cons_self
    rw [ofColumns, hnone]
    dsimp only
    by_cases hfirst : native.Fits guard.room
    · obtain ⟨value, hv⟩ := ofNative_of_fits hfirst (Nesting.hasRoom_room hfirst.pos)
      have hrest : ¬∀ other ∈ rest, Native.Fits guard.room other.2 :=
        fun h => hfits (List.forall_mem_cons.2 ⟨hfirst, h⟩)
      rw [hv]
      dsimp only
      rw [ofColumns_eq_error (fun other ho => hw other (List.mem_cons_of_mem _ ho))
        (fun other ho => hplain other (List.mem_cons_of_mem _ ho)) hrest]
      rfl
    · rw [ofNative_eq_error (hw (key, native) List.mem_cons_self) hfirst]

end

/-- **A written value is read just where there is room for its levels.** -/
theorem ofNative_written {native : Native} (h : native.Written) (guard : Nesting) :
    native.Fits guard.room ∧ (∃ back, ofNative guard native = .ok back) ∨
      ¬native.Fits guard.room ∧
        ofNative guard native = .error (.tooDeep guard.origin guard.bound) := by
  by_cases hfits : native.Fits guard.room
  · exact .inl ⟨hfits, ofNative_of_fits hfits (Nesting.hasRoom_room hfits.pos)⟩
  · exact .inr ⟨hfits, ofNative_eq_error h hfits⟩

end Rest

namespace Native

/-! ## What is written -/

mutual

theorem given_written : ∀ value : Rest, (given value).Written := by
  intro value
  cases value with
  | array items =>
    rw [given]
    exact .array (givenItems_written items)
  | object members =>
    rw [given]
    refine .document (givenMembers_written members) fun column hc => ?_
    rw [givenMembers_eq_map] at hc
    obtain ⟨member, _, rfl⟩ := List.mem_map.1 hc
    exact Rest.storedIso?_given _ _ _
  | number number => exact .scalar (isScalar_ofNumber number)
  | null | bool _ | string _ => exact .scalar trivial

theorem givenItems_written : ∀ (items : List Rest), ∀ native ∈ givenItems items, native.Written
  | [], _, hm => nomatch hm
  | item :: rest, native, hm => by
    rw [givenItems] at hm
    rcases List.mem_cons.1 hm with rfl | hm
    · exact given_written item
    · exact givenItems_written rest native hm

theorem givenMembers_written : ∀ (members : List (String × Rest)),
    ∀ column ∈ givenMembers members, column.2.Written
  | [], _, hm => nomatch hm
  | (_, value) :: rest, column, hm => by
    rw [givenMembers] at hm
    rcases List.mem_cons.1 hm with rfl | hm
    · exact given_written value
    · exact givenMembers_written rest column hm

end

theorem pointer_written (pointer : Pointer) : pointer.nested.Written := by
  refine .document (fun column hc => ?_) fun column hc => ?_
  · simp only [List.mem_cons, List.not_mem_nil, or_false] at hc
    rcases hc with rfl | rfl | rfl <;> exact .scalar trivial
  · simp only [List.mem_cons, List.not_mem_nil, or_false] at hc
    rcases hc with rfl | rfl | rfl <;> rfl

theorem nestedAtom?_written {value : Rest} {native : Native}
    (h : nestedAtom? value = .ok (some native)) : native.Written := by
  rcases nestedAtom?_cases h with hscalar | ⟨pointer, _, rfl⟩
  · exact .scalar hscalar
  · exact pointer_written pointer

theorem elements_written {guard : Nesting} {items : List Rest} {natives : List Native}
    (h : elements guard items = .ok natives) : ∀ native ∈ natives, native.Written := by
  replace h := elements_forall₂ h
  induction h with
  | nil => exact fun _ hm => nomatch hm
  | @cons item native rest later helement _ ih =>
    refine List.forall_mem_cons.2 ⟨?_, ih⟩
    rcases element_cases helement with ha | ⟨_, rfl⟩
    · exact nestedAtom?_written ha
    · exact given_written item

theorem flatten_written {guard : Nesting} {operation : Operation} {result : Option Native}
    (h : operation.flatten guard = .ok result) : (result.getD .null).Written := by
  cases operation with
  | delete =>
    cases h
    exact .scalar trivial
  | increment amount =>
    cases h
    exact .scalar (isScalar_ofNumber amount)
  | setOnInsert value =>
    obtain ⟨native, hn, rfl⟩ := Outcome.map_eq_ok.1 h
    rw [verbatim_eq_given hn]
    exact given_written value
  | add items | addUnique items =>
    obtain ⟨natives, hn, rfl⟩ := Outcome.map_eq_ok.1 h
    exact .array (elements_written hn)
  | remove items =>
    obtain ⟨natives, _, rfl⟩ := Outcome.map_eq_ok.1 h
    exact .array fun _ hm => nomatch hm

/-! ## Tags of walked objects -/

/-- An object that is walked has no tag, or that of an envelope other than a date's. -/
theorem IsWalked.tag_cases {members : Fields Rest} (h : IsWalked members) :
    Fields.get? members typeKey = none ∨
      ∃ kind, Fields.get? members typeKey = some (.string kind) ∧ kind ≠ Instant.kind := by
  have hatom := h.no_atom
  cases htag : Fields.get? members typeKey with
  | none => exact .inl rfl
  | some tag =>
    unfold nestedAtom? at hatom
    rw [shape_tagged htag] at hatom
    cases tag with
    | string kind =>
      refine .inr ⟨kind, rfl, ?_⟩
      rintro rfl
      rw [Shape.ofEnvelope_date] at hatom
      cases hd : Instant.ofEnvelope members with
      | error _ =>
        rw [hd] at hatom
        cases hatom
      | ok _ =>
        rw [hd] at hatom
        cases hatom
    | null | bool _ | number _ | array _ | object _ =>
      simp [Shape.ofEnvelope, Rest.text?] at hatom

/-- A text of a walked object stays under its key. -/
theorem get?_nestedMembers {key text : String} : ∀ {members : List (String × Rest)}
    {guard : Nesting} {columns : List (String × Native)},
    nestedMembers guard members = .ok columns →
      Fields.get? members key = some (.string text) →
        Fields.get? columns key = some (.string text)
  | (name, value) :: rest, guard, columns, h, hget => by
    obtain ⟨result, hr⟩ := nestedMembers_admits h (name, value) List.mem_cons_self
    rw [Fields.get?_cons] at hget
    rw [nestedMembers, hr] at h
    split at hget
    · rename_i hname
      obtain rfl := Option.some.inj hget
      have hatom : nestedAtom? (.string text) = .ok (some (.string text)) := rfl
      obtain rfl := nested_of_atom hatom hr
      obtain ⟨later, _, rfl⟩ := Outcome.map_eq_ok.1 h
      rw [Fields.get?_cons, if_pos hname]
    · rename_i hname
      cases result with
      | none => exact get?_nestedMembers h hget
      | some native =>
        obtain ⟨later, hl, rfl⟩ := Outcome.map_eq_ok.1 h
        rw [Fields.get?_cons, if_neg hname]
        exact get?_nestedMembers hl hget

theorem not_isStoredDate_of_walked {members : Fields Rest} {guard : Nesting}
    {columns : List (String × Native)} (hwalked : IsWalked members)
    (h : nestedMembers guard members = .ok columns) : Rest.isStoredDate columns = false := by
  unfold Rest.isStoredDate
  rcases hwalked.tag_cases with hnone | ⟨kind, hkind, hne⟩
  · have hcolumn : Fields.get? columns typeKey = none := by
      rw [Fields.get?_eq_none_iff] at hnone ⊢
      intro hk
      obtain ⟨column, hc, hkey⟩ := List.mem_map.1 hk
      obtain ⟨value, hm, _⟩ := (mem_nestedMembers h).1 (show (column.1, column.2) ∈ columns from hc)
      exact hnone (List.mem_map.2 ⟨(column.1, value), hm, hkey⟩)
    rw [hcolumn]
    rfl
  · rw [get?_nestedMembers h hkind]
    simpa [Native.text?] using hne

/-! ## Nested values -/

-- a value that is left out counts as null, as it does in an array
mutual

/-- **A nested value is a written one.** -/
theorem nested_written : ∀ {value : Rest} {guard : Nesting} {result : Option Native},
    nested guard value = .ok result → (result.getD .null).Written := by
  intro value guard result h
  cases value with
  | number number =>
    rw [nested_of_atom rfl h]
    exact .scalar (isScalar_ofNumber number)
  | null | bool _ | string _ =>
    rw [nested_of_atom rfl h]
    exact .scalar trivial
  | array items =>
    obtain ⟨_, natives, hn, rfl⟩ := nested_array h
    exact .array (nestedItems_written hn)
  | object members =>
    rcases nested_object h with ⟨native, ha, rfl⟩ | ⟨_, operation, _, _, _, hf⟩ |
      ⟨_, columns, hwalked, hc, rfl⟩
    · exact nestedAtom?_written ha
    · exact flatten_written hf
    · refine .document (nestedMembers_written hc) fun column _ => ?_
      rw [not_isStoredDate_of_walked hwalked hc]
      rfl

theorem nestedItems_written : ∀ {items : List Rest} {guard : Nesting} {natives : List Native},
    nestedItems guard items = .ok natives → ∀ native ∈ natives, native.Written
  | [], _, _, h => by
    rw [nestedItems] at h
    cases h
    exact fun _ hm => nomatch hm
  | item :: rest, _, _, h => by
    rw [nestedItems] at h
    split at h
    · cases h
    · rename_i first hf
      obtain ⟨later, hl, rfl⟩ := Outcome.map_eq_ok.1 h
      exact List.forall_mem_cons.2 ⟨nested_written hf, nestedItems_written hl⟩

theorem nestedMembers_written : ∀ {members : List (String × Rest)} {guard : Nesting}
    {columns : List (String × Native)}, nestedMembers guard members = .ok columns →
      ∀ column ∈ columns, column.2.Written
  | [], _, _, h => by
    rw [nestedMembers] at h
    cases h
    exact fun _ hm => nomatch hm
  | (key, value) :: rest, guard, columns, h => by
    rw [nestedMembers] at h
    split at h
    · cases h
    · exact nestedMembers_written h
    · rename_i stored hf
      obtain ⟨later, hl, rfl⟩ := Outcome.map_eq_ok.1 h
      exact List.forall_mem_cons.2 ⟨nested_written hf, nestedMembers_written hl⟩

end

end Native

end RestStore
