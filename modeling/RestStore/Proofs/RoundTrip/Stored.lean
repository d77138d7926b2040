import RestStore.Proofs.Native.Keys
import RestStore.Proofs.RoundTrip.Nested

/-!
# Nested values stored again

A stored value that is read below the top level and written again is what it was, but for the
options of its regular expressions: reading gives them a member of their own, and writing takes the
pattern alone.

* `Native.Recodable` — the stored values whose reading can be written.
* `Native.withoutOptions` — what is left of one; `Native.withoutOptions_eq_iff` says when that is
  all of it.
* `Recodes` — a stored value reads as a value that is written as another one: `recodes_atom` for
  scalars, `recode_columns` for documents.
* `stored_value_recoded` — what comes back, for every such value and every sufficient bound.
-/

set_option autoImplicit false

namespace RestStore

open Rest (Reordered)

namespace Native

/-- A stored value that reads as one that can be written: its numbers are finite and of the
smallest type, its instants have years of four digits, and the keys of its documents can be sent
by a client. -/
inductive Recodable : Native → Prop
  | null : Recodable .null
  | bool (flag : Bool) : Recodable (.bool flag)
  | string (text : String) : Recodable (.string text)
  | int32 (value : Int32) : Recodable (.int32 value)
  | int64 {value : Int64} : fitsInt32 value.toInt = false → Recodable (.int64 value)
  | double {value : Double} : value.isFinite = true → Recodable (.double value)
  | date {millis : Int64} : 0 ≤ (Instant.ofStored millis).date.year →
    (Instant.ofStored millis).date.year ≤ 9999 → Recodable (.date millis)
  | binary (bytes : List UInt8) : Recodable (.binary bytes 0)
  | regex (pattern options : String) : Recodable (.regex pattern options)
  | array {items : List Native} : (∀ item ∈ items, Recodable item) → Recodable (.array items)
  | document {columns : List (String × Native)} :
    (∀ key ∈ Fields.keys columns, isCleanKey key = true) → typeKey ∉ Fields.keys columns →
      operationKey ∉ Fields.keys columns → (∀ column ∈ columns, Recodable column.2) →
        Recodable (.document columns)

/-! ## Room for a value -/

theorem Recodable.exists_fits {native : Native} (h : native.Recodable) :
    ∃ levels, native.Fits levels := by
  induction h with
  | array _ ih =>
    obtain ⟨levels, hfits⟩ := Fits.exists_for_all id ih
    exact ⟨levels + 1, .array hfits⟩
  | document _ _ _ _ ih =>
    obtain ⟨levels, hfits⟩ := Fits.exists_for_all Prod.snd ih
    exact ⟨levels + 1, .document hfits⟩
  | null | bool _ | string _ | int32 _ | int64 _ | double _ | date _ _ | binary _ | regex _ _ =>
    exact ⟨1, .scalar trivial⟩

/-! ## Options of regular expressions -/

mutual

/-- The value with the patterns of its regular expressions alone. -/
def withoutOptions : Native → Native
  | .regex pattern _ => .regex pattern ""
  | .array items => .array (itemsWithoutOptions items)
  | .document columns => .document (columnsWithoutOptions columns)
  | native => native

def itemsWithoutOptions : List Native → List Native
  | [] => []
  | item :: rest => withoutOptions item :: itemsWithoutOptions rest

def columnsWithoutOptions : List (String × Native) → List (String × Native)
  | [] => []
  | (key, native) :: rest => (key, withoutOptions native) :: columnsWithoutOptions rest

end

/-- No regular expression in the value has options. -/
def FreeOfOptions (native : Native) : Prop :=
  ∀ pattern options, Inside native (.regex pattern options) → options = ""

theorem freeOfOptions_array_iff {items : List Native} :
    FreeOfOptions (.array items) ↔ ∀ item ∈ items, FreeOfOptions item := by
  constructor
  · exact fun h item hm pattern options hi => h pattern options (.item hm hi)
  · rintro h pattern options (_ | ⟨hm, hi⟩)
    exact h _ hm pattern options hi

theorem freeOfOptions_document_iff {columns : List (String × Native)} :
    FreeOfOptions (.document columns) ↔ ∀ column ∈ columns, FreeOfOptions column.2 := by
  constructor
  · exact fun h column hm pattern options hi => h pattern options (.column hm hi)
  · rintro h pattern options (_ | _ | ⟨hm, hi⟩)
    exact h _ hm pattern options hi

theorem freeOfOptions_regex_iff {pattern options : String} :
    FreeOfOptions (.regex pattern options) ↔ options = "" := by
  constructor
  · exact fun h => h pattern options .self
  · rintro rfl _ _ ⟨⟩
    rfl

mutual

/-- **Nothing is left out of a value exactly where no regular expression has options.** -/
theorem withoutOptions_eq_iff : ∀ {native : Native},
    withoutOptions native = native ↔ FreeOfOptions native := by
  intro native
  cases native with
  | regex pattern options =>
    rw [withoutOptions, freeOfOptions_regex_iff, Native.regex.injEq, eq_self, true_and, eq_comm]
  | array items =>
    rw [withoutOptions, freeOfOptions_array_iff, Native.array.injEq, itemsWithoutOptions_eq_iff]
  | document columns =>
    rw [withoutOptions, freeOfOptions_document_iff, Native.document.injEq,
      columnsWithoutOptions_eq_iff]
  | null | bool _ | string _ | int32 _ | int64 _ | double _ | date _ | binary _ _ | objectId _
  | opaqueValue _ =>
    refine iff_of_true rfl ?_
    rintro _ _ ⟨⟩

theorem itemsWithoutOptions_eq_iff : ∀ {items : List Native},
    itemsWithoutOptions items = items ↔ ∀ item ∈ items, FreeOfOptions item := by
  intro items
  cases items with
  | nil => simp [itemsWithoutOptions]
  | cons item rest =>
    rw [itemsWithoutOptions, List.cons.injEq, withoutOptions_eq_iff, itemsWithoutOptions_eq_iff,
      List.forall_mem_cons]

theorem columnsWithoutOptions_eq_iff : ∀ {columns : List (String × Native)},
    columnsWithoutOptions columns = columns ↔ ∀ column ∈ columns, FreeOfOptions column.2
  | [] => by simp [columnsWithoutOptions]
  | (key, native) :: rest => by
    rw [columnsWithoutOptions, List.cons.injEq, Prod.mk.injEq, eq_self, true_and,
      withoutOptions_eq_iff, columnsWithoutOptions_eq_iff, List.forall_mem_cons]

end

/-! ## Numbers -/

theorem ofNumber_int32 (value : Int32) : ofNumber (.integer value.toInt) = .int32 value := by
  have hlow := value.le_toInt
  have hhigh := value.toInt_lt
  have hfits : fitsInt32 value.toInt = true := by
    unfold fitsInt32
    rw [decide_eq_true_eq]
    omega
  simp only [ofNumber, ofInt, hfits, if_true, Int32.ofInt_toInt]

theorem ofNumber_int64 {value : Int64} (h : fitsInt32 value.toInt = false) :
    ofNumber (.integer value.toInt) = .int64 value := by
  have hlow := value.le_toInt
  have hhigh := value.toInt_lt
  have hfits : fitsInt64 value.toInt = true := by
    unfold fitsInt64
    rw [decide_eq_true_eq]
    omega
  simp only [ofNumber, ofInt, h, hfits, if_true, Bool.false_eq_true, if_false, Int64.ofInt_toInt]

end Native

/-! ## Reading and writing -/

/-- A stored value reads as a value that is written as another one, where there is room for its
levels. -/
def Recodes (levels : Nat) (native back : Native) : Prop :=
  ∀ reading writing : Nesting, reading.HasRoom levels → writing.HasRoom levels →
    ∃ value, Rest.ofNative reading native = .ok value ∧
      Native.nested writing value = .ok (some back)

/-- A stored value that reads as an atom. -/
theorem recodes_atom {native back : Native} {value : Rest} (levels : Nat)
    (hread : ∀ guard inner : Nesting, guard.enter = .ok inner →
      Rest.ofNative guard native = .ok value)
    (hatom : Native.nestedAtom? value = .ok (some back)) : Recodes (levels + 1) native back := by
  intro reading writing hr hw
  obtain ⟨inner, hi, _⟩ := hr.enter
  obtain ⟨deeper, hd, _⟩ := hw.enter
  exact ⟨value, hread reading inner hi, Native.nested_atom hd hatom⟩

theorem recodes_number {native : Native} {number : Number} (levels : Nat)
    (hread : native.number? = some number) (hwrite : Native.ofNumber number = native) :
    Recodes (levels + 1) native native := by
  have hatom : Native.nestedAtom? (.number number) = .ok (some native) := by
    rw [← hwrite]
    rfl
  refine recodes_atom levels (fun guard inner hi => ?_) hatom
  cases native with
  | int32 _ | int64 _ | double _ =>
    rw [Rest.ofNative, hi]
    dsimp only
    rw [hread]
    rfl
  | null | bool _ | string _ | date _ | binary _ _ | objectId _ | regex _ _ | array _ | document _
  | opaqueValue _ => cases hread

theorem recodes_date {millis : Int64} (levels : Nat)
    (hfirst : 0 ≤ (Instant.ofStored millis).date.year)
    (hlast : (Instant.ofStored millis).date.year ≤ 9999) :
    Recodes (levels + 1) (.date millis) (.date millis) := by
  obtain ⟨moment, rfl⟩ := IsoMoment.exists_of_stored hfirst hlast
  have hsame : Reordered moment.toEnvelope moment.toEnvelope := .intro (.refl _)
  exact recodes_atom levels (fun guard inner hi => Rest.ofNative_date hi moment)
    (nestedAtom?_of_shape (shape_date hsame))

theorem recodes_binary (levels : Nat) (bytes : List UInt8) :
    Recodes (levels + 1) (.binary bytes 0) (.binary bytes 0) := by
  let blob : Bytes := ⟨(StoredBytes.wrapped bytes).base64⟩
  have hpayload : blob.payload = .ok bytes := Bytes.payload_iff.2 rfl
  have hsame : Reordered blob.toEnvelope blob.toEnvelope := .intro (.refl _)
  refine recodes_atom levels (fun guard inner hi => by rw [Rest.ofNative, hi]) ?_
  rw [nestedAtom?_of_shape (shape_bytes hpayload hsame)]
  simp only [Native.ofNestedShape?, Bytes.toNative, hpayload, Except.map]

/-- Reading gives the options a member of their own; writing takes the pattern alone. -/
theorem recodes_regex (levels : Nat) (pattern options : String) :
    Recodes (levels + 1) (.regex pattern options) (.regex pattern "") :=
  recodes_atom levels (fun guard inner hi => by rw [Rest.ofNative, hi]) rfl

/-- An object whose keys can be sent, and that has no tag, is walked. -/
theorem isWalked_of_clean {members : Fields Rest}
    (hclean : ∀ key ∈ Fields.keys members, Native.isCleanKey key = true)
    (htag : typeKey ∉ Fields.keys members) (hop : operationKey ∉ Fields.keys members) :
    Native.IsWalked members where
  no_atom := nestedAtom?_of_shape (shape_of_clean hclean htag)
  no_operation := Fields.contains_eq_false_iff.2 hop
  clean := hclean

-- the recursion follows the stored value; the room it needs bounds both walks at every level
mutual

/-- **A stored value that can be sent is read and written back** without the options. -/
theorem recode_native : ∀ {native : Native} {levels : Nat}, native.Recodable →
    native.Fits levels → Recodes levels native native.withoutOptions
  | .null, _, _, .scalar _ =>
    recodes_atom _ (fun guard inner hi => by rw [Rest.ofNative, hi]) rfl
  | .bool _, _, _, .scalar _ =>
    recodes_atom _ (fun guard inner hi => by rw [Rest.ofNative, hi]) rfl
  | .string _, _, _, .scalar _ =>
    recodes_atom _ (fun guard inner hi => by rw [Rest.ofNative, hi]) rfl
  | .int32 value, _, _, .scalar _ => recodes_number _ rfl (Native.ofNumber_int32 value)
  | .int64 _, _, .int64 hwide, .scalar _ => recodes_number _ rfl (Native.ofNumber_int64 hwide)
  | .double _, _, .double hfinite, .scalar _ => recodes_number _ (if_pos hfinite) rfl
  | .date _, _, .date hfirst hlast, .scalar _ => recodes_date _ hfirst hlast
  | .binary _ _, _, .binary bytes, .scalar _ => recodes_binary _ bytes
  | .regex pattern options, _, _, .scalar _ => recodes_regex _ pattern options
  | .array items, _, .array hitems, .array hfits => by
    intro reading writing hr hw
    obtain ⟨inner, hi, hin⟩ := hr.enter
    obtain ⟨deeper, hd, hdeep⟩ := hw.enter
    obtain ⟨values, hread, hwrite⟩ := recode_items hitems hfits inner deeper hin hdeep
    refine ⟨.array values, ?_, ?_⟩
    · rw [Rest.ofNative, hi]
      dsimp only
      rw [hread]
      rfl
    · rw [Native.nested, hd, Native.withoutOptions]
      dsimp only
      rw [hwrite]
      rfl
  | .document columns, _, .document hclean htag hop hcolumns, .document hfits => by
    intro reading writing hr hw
    obtain ⟨inner, hi, hin⟩ := hr.enter
    obtain ⟨deeper, hd, hdeep⟩ := hw.enter
    obtain ⟨members, hread, hkeys, hwrite⟩ :=
      recode_columns hcolumns hfits inner deeper hin hdeep
    have hdate : Rest.isStoredDate columns = false := by
      unfold Rest.isStoredDate
      rw [(Fields.get?_eq_none_iff _ _).2 htag]
      rfl
    rw [← hkeys] at hclean htag hop
    refine ⟨.object members, ?_, ?_⟩
    · rw [Rest.ofNative, hi]
      dsimp only
      rw [hdate, hread]
      rfl
    · rw [Native.withoutOptions]
      exact Native.nested_walked hd (isWalked_of_clean hclean htag hop) hwrite

theorem recode_items : ∀ {items : List Native} {levels : Nat},
    (∀ item ∈ items, item.Recodable) → (∀ item ∈ items, item.Fits levels) →
      ∀ reading writing : Nesting, reading.HasRoom levels → writing.HasRoom levels →
        ∃ values, Rest.ofItems reading items = .ok values ∧
          Native.nestedItems writing values = .ok (Native.itemsWithoutOptions items)
  | [], _, _, _, _, _, _, _ => ⟨[], by rw [Rest.ofItems], by rw [Native.nestedItems]; rfl⟩
  | item :: rest, levels, hitems, hfits, reading, writing, hr, hw => by
    obtain ⟨value, hread, hwrite⟩ := recode_native (hitems item List.mem_cons_self)
      (hfits item List.mem_cons_self) reading writing hr hw
    obtain ⟨values, hreads, hwrites⟩ := recode_items
      (fun other ho => hitems other (List.mem_cons_of_mem _ ho))
      (fun other ho => hfits other (List.mem_cons_of_mem _ ho)) reading writing hr hw
    refine ⟨value :: values, ?_, ?_⟩
    · rw [Rest.ofItems, hread]
      dsimp only
      rw [hreads]
      rfl
    · rw [Native.nestedItems, hwrite]
      dsimp only
      rw [hwrites]
      rfl

theorem recode_columns : ∀ {columns : List (String × Native)} {levels : Nat},
    (∀ column ∈ columns, column.2.Recodable) → (∀ column ∈ columns, column.2.Fits levels) →
      ∀ reading writing : Nesting, reading.HasRoom levels → writing.HasRoom levels →
        ∃ members, Rest.ofColumns reading false columns = .ok members ∧
          Fields.keys members = Fields.keys columns ∧
          Native.nestedMembers writing members = .ok (Native.columnsWithoutOptions columns)
  | [], _, _, _, _, _, _, _ =>
    ⟨[], by rw [Rest.ofColumns], rfl, by rw [Native.nestedMembers]; rfl⟩
  | (key, native) :: rest, levels, hcolumns, hfits, reading, writing, hr, hw => by
    obtain ⟨value, hread, hwrite⟩ := recode_native (hcolumns (key, native) List.mem_cons_self)
      (hfits (key, native) List.mem_cons_self) reading writing hr hw
    obtain ⟨members, hreads, hkeys, hwrites⟩ := recode_columns
      (fun other ho => hcolumns other (List.mem_cons_of_mem _ ho))
      (fun other ho => hfits other (List.mem_cons_of_mem _ ho)) reading writing hr hw
    refine ⟨(key, value) :: members, ?_, congrArg (key :: ·) hkeys, ?_⟩
    · rw [Rest.ofColumns]
      simp only [Rest.storedIso?, Bool.false_and, Bool.false_eq_true, if_false, hread, hreads]
      rfl
    · rw [Native.nestedMembers, hwrite]
      dsimp only
      rw [hwrites]
      rfl

end

/-- **A stored value that is read and written again loses the options of its regular expressions**,
and nothing else. With enough room both steps succeed, and the result is the value without those
options; so it is the value itself exactly where no regular expression has any. -/
theorem stored_value_recoded {native : Native} (h : native.Recodable) :
    (∃ levels, native.Fits levels) ∧
      (∀ levels, native.Fits levels → Recodes levels native native.withoutOptions) ∧
      (native.withoutOptions = native ↔ native.FreeOfOptions) :=
  ⟨h.exists_fits, fun _ hfits => recode_native h hfits, Native.withoutOptions_eq_iff⟩

/-- A saved search: when it was made, the key of its owner, what it finds and how often it ran. -/
def savedSearch : Native :=
  .document [("made", .date 1577836800000), ("owner", .binary [0, 255] 0),
    ("finds", .array [.regex "^a" "i", .double ⟨0x3FE0000000000000⟩, .null]),
    ("runs", .document [("all", .int64 5000000000), ("today", .int32 (-3))])]

theorem savedSearch_recodable : savedSearch.Recodable := by
  refine .document (by decide) (by decide) (by decide) fun column hc => ?_
  simp only [List.mem_cons, List.not_mem_nil, or_false] at hc
  rcases hc with rfl | rfl | rfl | rfl
  · exact .date (by decide) (by decide)
  · exact .binary [0, 255]
  · refine .array fun item hi => ?_
    simp only [List.mem_cons, List.not_mem_nil, or_false] at hi
    rcases hi with rfl | rfl | rfl
    · exact .regex "^a" "i"
    · exact .double (by decide)
    · exact .null
  · refine .document (by decide) (by decide) (by decide) fun column hc => ?_
    simp only [List.mem_cons, List.not_mem_nil, or_false] at hc
    rcases hc with rfl | rfl
    · exact .int64 (by decide)
    · exact .int32 (-3)

theorem stored_value_recoded_search :
    savedSearch.Recodable ∧ (∃ levels, savedSearch.Fits levels) ∧
      (∀ levels, savedSearch.Fits levels →
        Recodes levels savedSearch savedSearch.withoutOptions) ∧
      (savedSearch.withoutOptions = savedSearch ↔ savedSearch.FreeOfOptions) :=
  ⟨savedSearch_recodable, stored_value_recoded savedSearch_recodable⟩

/-- An expression that ignores case is read with its options and written without them. -/
theorem recoded_regex_loses_options :
    (Native.regex "^a" "i").Recodable ∧ (Native.regex "^a" "i").Fits 1 ∧
      Rest.ofNative (.top 64 .decode) (.regex "^a" "i") =
        .ok (.object [(regexKey, .string "^a"), ("$options", .string "i")]) ∧
      Native.nested (.top 64 .value)
        (.object [(regexKey, .string "^a"), ("$options", .string "i")]) =
          .ok (some (.regex "^a" "")) ∧
      Native.regex "^a" "" ≠ .regex "^a" "i" := by
  refine ⟨.regex "^a" "i", .scalar trivial, rfl, rfl, ?_⟩
  intro h
  exact absurd (Native.regex.inj h).2 (by decide)

end RestStore
