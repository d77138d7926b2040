import RestStore.Decode
import RestStore.Proofs.Native.Given
import RestStore.Proofs.Relations
import RestStore.Proofs.Text.Integers
import RestStore.Proofs.Where.Conjunction
import RestStore.Proofs.Write.Columns
import RestStore.Write.Update

/-!
# Finding an object by its id

A new object keeps its id as given, and is read with the text of it. In an ordinary class a query
and an update take an id as given, too; only in a class with integer ids do they turn a text into
the integer it holds. So an object of an ordinary class is found by the id it was created with, and
by the id it is read with when that is the same text: `stored_id_found`. A number that is the id of
an object of an ordinary class is not found by its text: `stored_id_missed`.

* `created_id`, `read_id` — the stored id, and the id of the object that is read.
* `queried_id`, `queried_integer` — the id that a query looks for.
* `updated_text`, `updated_number`, `updated_integer` — the id that an update sets.
-/

set_option autoImplicit false

namespace RestStore

/-- The values that can be object ids: texts and numbers. -/
inductive IsId : Rest → Prop
  | text (text : String) : IsId (.string text)
  | number (number : Number) : IsId (.number number)

/-- The operator document that sets the object id. -/
def setsId (native : Native) : Document :=
  [(UpdateOperator.set.token, .document [(idColumn, native)])]

variable {target : Target} {value : Rest}

theorem verbatim_id (hv : IsId value) (guard : Nesting) :
    Native.verbatim guard value = guard.enter.map fun _ => Native.given value := by
  cases hv with
  | text text | number number =>
    unfold Native.verbatim
    cases guard.enter <;> rfl

/-! ## Creating -/

/-- What is stored as an object id is the id as given. -/
theorem created_id (hv : IsId value) {created : Document} {stored : Native}
    (hc : Create.document target [(objectIdKey, value)] = .ok created)
    (hs : Fields.get? created idColumn = some stored) :
    target.isRelation objectIdKey value = false ∧ 1 ≤ target.config.maxDepth ∧
      stored = Native.given value ∧ created = [(idColumn, stored)] := by
  rw [Create.document_single (by decide)] at hc
  split at hc
  · cases hc
    cases hs
  · rename_i hr
    obtain ⟨column, hcolumn, rfl⟩ := Outcome.map_eq_ok.1 hc
    obtain ⟨native, hnative, rfl⟩ := Outcome.map_eq_ok.1 hcolumn
    rw [verbatim_id hv] at hnative
    obtain ⟨inner, hi, rfl⟩ := Outcome.map_eq_ok.1 hnative
    cases hs
    refine ⟨Bool.not_eq_true _ ▸ hr, ?_, rfl, rfl⟩
    by_contra hd
    have hfull : (Create.guard target).enter = .error (.tooDeep .object target.config.maxDepth) :=
      if_pos (show target.config.maxDepth ≤ 0 by omega)
    rw [hfull] at hi
    cases hi

/-! ## Reading -/

/-- The object of a document that holds nothing but an id has the text of that id. -/
theorem read_id {native : Native} {id : String} (h : Decode.idText native = .ok id) :
    ∃ object, Decode.object target [(idColumn, native)] = .ok object ∧
      Fields.get? object objectIdKey = some (.string id) := by
  have hplace : Decode.placement target idColumn native =
      .ok (.field objectIdKey (.string id)) := by
    show (Decode.idText native).map _ = _
    rw [h]
    rfl
  have hplaces : Decode.placements target [(idColumn, native)] =
      .ok [.field objectIdKey (.string id)] := by
    simp only [Decode.placements, hplace, Except.map]
  refine ⟨target.schema.relations.foldl Decode.addRelation [(objectIdKey, .string id)], ?_, ?_⟩
  · unfold Decode.object
    rw [hplaces]
    rfl
  · rw [Decode.get?_foldl_addRelation]
    rfl

/-- The text of a stored id: the text itself, or the digits of the number. -/
theorem exists_idText (hv : IsId value) : ∃ id, Decode.idText (Native.given value) = .ok id := by
  cases hv with
  | text text => exact ⟨text, rfl⟩
  | number number =>
    cases number with
    | double d => exact ⟨_, rfl⟩
    | integer i =>
      show ∃ id, Decode.idText (Native.ofInt i) = .ok id
      unfold Native.ofInt
      split
      · exact ⟨_, rfl⟩
      · split
        · exact ⟨_, rfl⟩
        · exact ⟨_, rfl⟩

theorem idText_integer {i : Int} (h : fitsInt64 i = true) :
    Decode.idText (Native.ofInt i) = .ok (toString i) := by
  have htext : ∀ {native : Native}, native.number? = some (.integer i) →
      Decode.idText native = .ok (toString i) := by
    intro native hnumber
    cases native with
    | int32 value | int64 value =>
      simp only [Native.number?, Option.some.injEq, Number.integer.injEq] at hnumber
      simp only [Decode.idText, hnumber]
    | double value =>
      simp only [Native.number?] at hnumber
      split at hnumber <;> cases hnumber
    | null | bool _ | string _ | date _ | binary _ _ | objectId _ | regex _ _ | array _ | document _
    | opaqueValue _ => cases hnumber
  exact htext (Native.number?_ofNumber_integer h)

/-! ## Querying -/

variable {count : Bool} {now : Instant}

/-- The query for an id is the entry of the id. -/
theorem document_id (hd : 1 ≤ target.config.maxDepth) :
    Where.document ⟨target, count, now⟩ [(objectIdKey, value)] =
      (Where.idEntry ⟨target, count, now⟩ (Where.guardAt ⟨target, count, now⟩ 0) value).map
        fun own => [own] := by
  have henter : (Nesting.top target.config.maxDepth .query).enter =
      .ok (Where.guardAt ⟨target, count, now⟩ 0) :=
    if_neg (show ¬target.config.maxDepth ≤ 0 by omega)
  unfold Where.document
  rw [henter]
  have hfield : Where.entry ⟨target, count, now⟩ (Where.guardAt ⟨target, count, now⟩ 0) objectIdKey
      value = Where.idEntry ⟨target, count, now⟩ (Where.guardAt ⟨target, count, now⟩ 0) value :=
    Where.entry_of_field (by decide) value
  simp only [Where.entries, hfield]
  cases Where.idEntry ⟨target, count, now⟩ (Where.guardAt ⟨target, count, now⟩ 0) value <;> rfl

/-- In an ordinary class a query looks for an id as given. The clause is a level around it. -/
theorem queried_id (hv : IsId value) (hd : 1 ≤ target.config.maxDepth)
    (hn : target.hasNumericIds = false) (native : Native) :
    Where.document ⟨target, count, now⟩ [(objectIdKey, value)] = .ok [(idColumn, native)] ↔
      2 ≤ target.config.maxDepth ∧ native = Native.given value := by
  have hentry : Where.idEntry ⟨target, count, now⟩ (Where.guardAt ⟨target, count, now⟩ 0) value =
      ((Where.guardAt ⟨target, count, now⟩ 0).enter).map
        fun _ => (idColumn, Native.given value) := by
    have hgiven := verbatim_id hv (Where.guardAt ⟨target, count, now⟩ 0)
    cases hv with
    | text text | number number =>
      simp only [Where.idEntry, hn, Bool.false_eq_true, if_false, hgiven]
      cases (Where.guardAt ⟨target, count, now⟩ 0).enter <;> rfl
  rw [document_id hd, hentry]
  by_cases hroom : 2 ≤ target.config.maxDepth
  · have henter : (Where.guardAt ⟨target, count, now⟩ 0).enter =
        .ok (Where.guardAt ⟨target, count, now⟩ 1) :=
      if_neg (show ¬target.config.maxDepth ≤ 1 by omega)
    rw [henter]
    simp [Except.map, hroom, eq_comm]
  · have hfull : (Where.guardAt ⟨target, count, now⟩ 0).enter =
        .error (.tooDeep .query target.config.maxDepth) :=
      if_pos (show target.config.maxDepth ≤ 1 by omega)
    rw [hfull]
    simp [Except.map, hroom]

/-- In a class with integer ids a query looks for the integer that the id holds. -/
theorem queried_integer (hv : IsId value) (hd : 1 ≤ target.config.maxDepth)
    (hn : target.hasNumericIds = true) {i : Int} (hi : integerOfRest? value = some i) :
    Where.document ⟨target, count, now⟩ [(objectIdKey, value)] =
      .ok [(idColumn, Native.ofInt i)] := by
  rw [document_id hd]
  cases hv with
  | text text | number number => simp [Where.idEntry, hn, integerId, hi, Except.map]

/-- The text of an integer holds that integer. -/
theorem integerOfRest?_toString {i : Int} (h : fitsInt64 i = true) :
    integerOfRest? (.string (toString i)) = some i := by
  show (integerOfChars? (trim (toString i).toList)).filter fitsInt64 = some i
  rw [trim_toString, integerOfChars?_toString]
  simp [Option.filter, h]

/-! ## Updating -/

/-- An update of an id collects what its field contributes. -/
theorem update_id (hr : target.isRelation objectIdKey value = false)
    {native : Native}
    (hf : Update.field? target objectIdKey value =
      .ok (some (Update.setColumn idColumn native))) :
    Update.document target [(objectIdKey, value)] = .ok (setsId native) := by
  unfold Update.document Update.contributions
  rw [Create.permissionColumns_single value (by decide)]
  simp only [Update.fields, hr, hf, Bool.or_false]
  rfl

/-- In an ordinary class an update sets a text as it does in any field: the id of an object of the
target class where the schema declares a pointer. -/
theorem updated_text {text : String} (hr : target.isRelation objectIdKey (.string text) = false)
    (hn : target.hasNumericIds = false) :
    Update.document target [(objectIdKey, .string text)] =
      .ok (setsId (Native.ofText (target.schema.field? objectIdKey) text)) := by
  have hcolumn : Column.forUpdate target.schema objectIdKey (.string text) =
      ⟨idColumn, .objectId⟩ := rfl
  refine update_id hr ?_
  simp only [Update.field?, hcolumn, hn, Bool.false_eq_true, if_false]
  rfl

theorem updated_number {number : Number}
    (hr : target.isRelation objectIdKey (.number number) = false)
    (hn : target.hasNumericIds = false) :
    Update.document target [(objectIdKey, .number number)] = .ok (setsId (.ofNumber number)) := by
  have hcolumn : Column.forUpdate target.schema objectIdKey (.number number) =
      ⟨idColumn, .objectId⟩ := rfl
  refine update_id hr ?_
  simp only [Update.field?, hcolumn, hn, Bool.false_eq_true, if_false]
  rfl

/-- In a class with integer ids an update sets the integer that the id holds. -/
theorem updated_integer (hr : target.isRelation objectIdKey value = false)
    (hn : target.hasNumericIds = true) {i : Int} (hi : integerOfRest? value = some i) :
    Update.document target [(objectIdKey, value)] = .ok (setsId (Native.ofInt i)) := by
  refine update_id hr ?_
  have hcolumn : Column.forUpdate target.schema objectIdKey value = ⟨idColumn, .objectId⟩ := rfl
  simp [Update.field?, hcolumn, hn, integerId, hi, Except.map, Update.setColumn]

/-! ## Finding an object by its id -/

theorem ofText_of_not_pointer (h : target.schema.fieldIs objectIdKey .pointer = false)
    (text : String) :
    Native.ofText (target.schema.field? objectIdKey) text = .string text := by
  unfold Schema.fieldIs at h
  cases hfield : target.schema.field? objectIdKey with
  | none => rfl
  | some declared =>
    rw [hfield] at h
    have htype : declared.type ≠ .pointer := by simpa using h
    simp [Native.ofText, htype]

/-- The text of a stored id is stored under that id just when the id is a text. -/
theorem string_idText_iff (hv : IsId value) {id : String}
    (h : Decode.idText (Native.given value) = .ok id) :
    Native.string id = Native.given value ↔ ∃ text, value = .string text := by
  cases hv with
  | text text =>
    cases h
    simp [Native.given]
  | number number =>
    have hne : Native.string id ≠ Native.ofNumber number :=
      fun he => Native.ofNumber_ne_string number id he.symm
    simp [Native.given, hne]

/-- **An object is found by its id.** It keeps the id as given and is read with the text of it. In
an ordinary class the query for the id as given finds it wherever there is room for the level of
the clause, the query for the text finds it just when the id is a text, and an update sets the same
id, unless the id is a text that the schema declares to be the id of a pointer. In a class with
integer ids all three find and set an id that is an integer. -/
theorem stored_id_found (hv : IsId value) {created : Document} {stored : Native}
    (hc : Create.document target [(objectIdKey, value)] = .ok created)
    (hs : Fields.get? created idColumn = some stored) (count : Bool) (now : Instant) :
    created = [(idColumn, stored)] ∧ stored = Native.given value ∧
    ∃ object id, Decode.object target created = .ok object ∧
      Fields.get? object objectIdKey = some (.string id) ∧ Decode.idText stored = .ok id ∧
      (target.hasNumericIds = false →
        (Where.document ⟨target, count, now⟩ [(objectIdKey, value)] = .ok [(idColumn, stored)] ↔
          2 ≤ target.config.maxDepth) ∧
        (Where.document ⟨target, count, now⟩ [(objectIdKey, .string id)] =
            .ok [(idColumn, .string id)] ↔ 2 ≤ target.config.maxDepth) ∧
        (Native.string id = stored ↔ ∃ text, value = .string text) ∧
        (target.schema.fieldIs objectIdKey .pointer = false ∨ (∀ text, value ≠ .string text) →
          Update.document target [(objectIdKey, value)] = .ok (setsId stored)) ∧
        ∀ declared text, target.schema.field? objectIdKey = some declared →
          declared.type = .pointer → value = .string text →
            Update.document target [(objectIdKey, value)] =
              .ok (setsId (.string (declared.targetOrEmpty ++ "$" ++ text)))) ∧
      (target.hasNumericIds = true → ∀ i, value = .number (.integer i) → fitsInt64 i = true →
        Where.document ⟨target, count, now⟩ [(objectIdKey, value)] = .ok [(idColumn, stored)] ∧
        Update.document target [(objectIdKey, value)] = .ok (setsId stored) ∧
        Where.document ⟨target, count, now⟩ [(objectIdKey, .string id)] =
          .ok [(idColumn, stored)]) := by
  obtain ⟨hr, hd, rfl, rfl⟩ := created_id hv hc hs
  obtain ⟨id, hid⟩ := exists_idText hv
  obtain ⟨object, hobject, hget⟩ := read_id hid
  refine ⟨rfl, rfl, object, id, hobject, hget, hid, fun hn => ⟨?_, ?_, ?_, ?_, ?_⟩, ?_⟩
  · rw [queried_id hv hd hn]
    simp
  · rw [queried_id (.text id) hd hn]
    simp [Native.given]
  · exact string_idText_iff hv hid
  · intro hplain
    cases hv with
    | number number => exact updated_number hr hn
    | text text =>
      have hpointer := hplain.resolve_right fun hne => hne text rfl
      rw [updated_text hr hn, ofText_of_not_pointer hpointer]
      rfl
  · rintro declared text hfield htype rfl
    rw [updated_text hr hn]
    simp [Native.ofText, hfield, htype]
  · rintro hn i rfl hi
    have hinteger : integerOfRest? (.number (.integer i)) = some i := if_pos hi
    have htext : id = toString i := by
      have hboth := hid.symm.trans (idText_integer hi)
      cases hboth
      rfl
    refine ⟨queried_integer hv hd hn hinteger, updated_integer hr hn hinteger, ?_⟩
    rw [htext]
    exact queried_integer (.text _) hd hn (integerOfRest?_toString hi)

/-- The class of tickets. -/
def ticketTarget : Target := ⟨"Ticket", .empty, .standard⟩

/-- The class of settings, whose ids are integers. -/
def settingTarget : Target := ⟨"_GlobalConfig", .empty, .standard⟩

theorem stored_id_found_ticket :
    (Create.document ticketTarget [(objectIdKey, .string "a1")] =
        .ok [(idColumn, .string "a1")] ∧
      Where.document ⟨ticketTarget, false, ⟨0, 0⟩⟩ [(objectIdKey, .string "a1")] =
        .ok [(idColumn, .string "a1")] ∧
      Update.document ticketTarget [(objectIdKey, .string "a1")] =
        .ok (setsId (.string "a1"))) ∧
    Create.document settingTarget [(objectIdKey, .number (.integer (-7)))] =
        .ok [(idColumn, .int32 (-7))] ∧
      Where.document ⟨settingTarget, false, ⟨0, 0⟩⟩ [(objectIdKey, .number (.integer (-7)))] =
        .ok [(idColumn, .int32 (-7))] ∧
      Update.document settingTarget [(objectIdKey, .number (.integer (-7)))] =
        .ok (setsId (.int32 (-7))) ∧
      ∃ object id, Decode.object settingTarget [(idColumn, .int32 (-7))] = .ok object ∧
        Fields.get? object objectIdKey = some (.string id) ∧
        Where.document ⟨settingTarget, false, ⟨0, 0⟩⟩ [(objectIdKey, .string id)] =
          .ok [(idColumn, .int32 (-7))] := by
  have htext : Create.document ticketTarget [(objectIdKey, .string "a1")] =
      .ok [(idColumn, .string "a1")] := rfl
  have hinteger : Create.document settingTarget [(objectIdKey, .number (.integer (-7)))] =
      .ok [(idColumn, .int32 (-7))] := rfl
  obtain ⟨-, -, _, _, -, -, -, hordinary, -⟩ :=
    stored_id_found (.text "a1") htext rfl false ⟨0, 0⟩
  obtain ⟨-, -, object, id, hobject, hget, -, -, hnumeric⟩ :=
    stored_id_found (.number (.integer (-7))) hinteger rfl false ⟨0, 0⟩
  obtain ⟨hquery, -, -, hupdate, -⟩ := hordinary (by decide)
  obtain ⟨hfound, hset, hread⟩ := hnumeric (by decide) (-7) rfl (by decide)
  exact ⟨⟨htext, hquery.2 (by decide), hupdate (.inl (by decide))⟩, hinteger, hfound, hset, object,
    id, hobject, hget, hread⟩

/-- Tickets whose id is declared as a pointer to a user. -/
def ownedTicketTarget : Target :=
  ⟨"Ticket", .ofFields [(objectIdKey, ⟨.pointer, some "_User"⟩)], .standard⟩

/-- Tickets without room for a value in a clause. -/
def shallowTicketTarget : Target := ⟨"Ticket", .empty, { maxDepth := 1 }⟩

/-- A number is no longer the id once the object has been read; a declared pointer changes the id
that an update sets; and a value that may be stored may be too deep for a clause. -/
theorem stored_id_missed :
    (Create.document ticketTarget [(objectIdKey, .number (.integer 5))] =
        .ok [(idColumn, .int32 5)] ∧
      Decode.object ticketTarget [(idColumn, .int32 5)] = .ok [(objectIdKey, .string "5")] ∧
      Where.document ⟨ticketTarget, false, ⟨0, 0⟩⟩ [(objectIdKey, .string "5")] =
        .ok [(idColumn, .string "5")] ∧
      Native.string "5" ≠ .int32 5) ∧
    (Create.document ownedTicketTarget [(objectIdKey, .string "a1")] =
        .ok [(idColumn, .string "a1")] ∧
      Update.document ownedTicketTarget [(objectIdKey, .string "a1")] =
        .ok (setsId (.string "_User$a1"))) ∧
    Create.document shallowTicketTarget [(objectIdKey, .string "a1")] =
        .ok [(idColumn, .string "a1")] ∧
      Where.document ⟨shallowTicketTarget, false, ⟨0, 0⟩⟩ [(objectIdKey, .string "a1")] =
        .error (.tooDeep .query 1) :=
  ⟨⟨rfl, rfl, rfl, nofun⟩, ⟨rfl, rfl⟩, rfl, rfl⟩

end RestStore
