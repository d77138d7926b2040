import RestStore.Proofs.Constraint.Entries
import RestStore.Proofs.Native.Literal
import RestStore.Proofs.Where.Clauses
import RestStore.Proofs.Write.Contributions

/-!
# Elements of arrays

A value inside an array is stored in one native form, whichever way it is written, and is sent in
one native form for every operation and every constraint on an array field. `element_forms` says
when the two are the same: where the value is an atom inside arrays, or nothing in it converts.

* `ElementIn` — what a stored value holds for an item of an array, at any depth.
* `StoresElement`, `SendsElement` — the ways of an element into the store, and into updates and
  queries.
* `nested_of_stores`, `element_of_sends` — each has one function that decides.
-/

set_option autoImplicit false

namespace RestStore

open Rest (HasKey)

/-- A native value stands for a value that is an item of an array, in a whole value and in what is
stored for it. The array may stand in other arrays and in plain objects. -/
inductive ElementIn (value : Rest) (native : Native) : Rest → Native → Prop
  | here {items : List Rest} {natives : List Native} {i : Nat} :
    items[i]? = some value → natives[i]? = some native →
      ElementIn value native (.array items) (.array natives)
  | item {items : List Rest} {natives : List Native} {i : Nat} {whole : Rest} {stored : Native} :
    items[i]? = some whole → natives[i]? = some stored → ElementIn value native whole stored →
      ElementIn value native (.array items) (.array natives)
  | member {members : Fields Rest} {columns : Document} {key : String} {whole : Rest}
    {stored : Native} : (Fields.keys members).Nodup → operationKey ∉ Fields.keys members →
      Fields.get? members key = some whole → Fields.get? columns key = some stored →
        ElementIn value native whole stored →
          ElementIn value native (.object members) (.document columns)

/-- What creating or replacing a field with an array, or with an object that holds one, stores for
an item. The field is none that is stored as given. -/
inductive StoresElement (value : Rest) (native : Native) : Prop
  | created {target : Target} {key column : String} {whole : Rest} {stored : Native} :
    Create.isPermissionKey key = false → Create.verbatimColumn? key = none →
      Native.columnAtom? none whole = .ok none →
        Create.document target [(key, whole)] = .ok [(column, stored)] →
          ElementIn value native whole stored → StoresElement value native
  | replaced {target : Target} {key column : String} {whole : Rest} {stored : Native} :
    Create.isPermissionKey key = false → Native.columnAtom? none whole = .ok none →
      Update.document target [(key, whole)] = .ok [("$set", .document [(column, stored)])] →
        ElementIn value native whole stored → StoresElement value native

/-- A compiled constraint in the query for its field alone; a containment is negated. -/
def AnswerIn (answer query : Document) : Prop :=
  ∃ column : String, query = [(column, .document answer)] ∨
    query = [(Where.norKey, .array [.document [(column, .document answer)]])]

/-- What a compiled constraint compares a value of its request with. -/
inductive ComparedAs (constraint : Fields Rest) (answer : Document) (value : Rest)
    (native : Native) : Prop
  | all {items : List Rest} {natives : List Native} {i : Nat} :
    Fields.get? constraint "$all" = some (.array items) →
      Fields.get? answer "$all" = some (.array natives) →
        items[i]? = some value → natives[i]? = some native →
          ComparedAs constraint answer value native
  | membership {token : String} {items : List Rest} {natives : List Native} {i : Nat} :
    token = "$in" ∨ token = "$nin" → Fields.get? constraint token = some (.array items) →
      Fields.get? answer token = some (.array natives) →
        (Constraint.spread items)[i]? = some value → natives[i]? = some native →
          ComparedAs constraint answer value native
  | comparison {token : String} :
    token = "$eq" ∨ token = "$ne" → Fields.get? constraint token = some value →
      Fields.get? answer token = some native → ComparedAs constraint answer value native

/-- What is sent for an element: by an operation on a field of a stored object, or by a constraint
on an array field that is not matched as given. -/
inductive SendsElement (value : Rest) (native : Native) : Prop
  | added {target : Target} {key column : String} {members : Fields Rest} {items : List Rest}
    {natives : List Native} {i : Nat} {name token : String} :
    name = "Add" ∧ token = "$push" ∨ name = "AddUnique" ∧ token = "$addToSet" →
      Create.isPermissionKey key = false →
        Fields.get? members operationKey = some (.string name) →
          Fields.get? members "objects" = some (.array items) →
            Update.document target [(key, .object members)] =
              .ok [(token, .document [(column, .document [("$each", .array natives)])])] →
                items[i]? = some value → natives[i]? = some native → SendsElement value native
  | removed {target : Target} {key column : String} {members : Fields Rest} {items : List Rest}
    {natives : List Native} {i : Nat} : Create.isPermissionKey key = false →
      Fields.get? members operationKey = some (.string "Remove") →
        Fields.get? members "objects" = some (.array items) →
          Update.document target [(key, .object members)] =
            .ok [("$pullAll", .document [(column, .array natives)])] →
              items[i]? = some value → natives[i]? = some native → SendsElement value native
  | compared {scope : Where.Scope} {key : String} {constraint : Fields Rest}
    {query answer : Document} : scope.target.schema.fieldIs key .array = true →
      key ≠ objectIdKey → Where.verbatimColumn? key = none →
        (∀ name ∈ Fields.keys constraint, Constraint.isOperatorKey name = true) →
          Where.document scope [(key, .object constraint)] = .ok query →
            AnswerIn answer query → ComparedAs constraint answer value native →
              SendsElement value native

section

variable {value : Rest} {native : Native}

/-- Related lists are related at every position. -/
theorem related_at {α β : Type} {related : α → β → Prop} {first : List α} {second : List β}
    (h : List.Forall₂ related first second) {i : Nat} {a : α} {b : β} (ha : first[i]? = some a)
    (hb : second[i]? = some b) : related a b := by
  obtain ⟨hi, rfl⟩ := List.getElem?_eq_some_iff.1 ha
  obtain ⟨hj, rfl⟩ := List.getElem?_eq_some_iff.1 hb
  exact h.get hi hj

/-! ## Into the store -/

/-- What a nested value holds for an item is what the walk makes of it. -/
theorem nested_of_elementIn {whole : Rest} {stored : Native}
    (h : ElementIn value native whole stored) : ∀ {guard : Nesting},
      Native.nested guard whole = .ok (some stored) →
        ∃ inner result, Native.nested inner value = .ok result ∧ native = result.getD .null := by
  induction h with
  | here hvalue hnative =>
    intro guard hn
    obtain ⟨inner, natives, hitems, hs⟩ := Native.nested_array hn
    cases hs
    obtain ⟨result, hr, he⟩ := related_at (Native.nestedItems_forall₂ hitems) hvalue hnative
    exact ⟨inner, result, hr, he⟩
  | item hwhole hstored hin ih =>
    intro guard hn
    obtain ⟨inner, natives, hitems, hs⟩ := Native.nested_array hn
    cases hs
    obtain ⟨result, hr, he⟩ := related_at (Native.nestedItems_forall₂ hitems) hwhole hstored
    cases result with
    | none =>
      -- a deletion leaves a null behind, which holds no items
      rw [he] at hin
      cases hin
    | some own =>
      rw [he] at ih
      exact ih hr
  | member hnodup hop hwhole hstored hin ih =>
    intro guard hn
    rcases Native.nested_object hn with ⟨_, ha, he⟩ | ⟨_, _, _, hcontains, _⟩ |
      ⟨_, _, _, hcolumns, hs⟩
    · cases he
      rcases Native.nestedAtom?_cases ha with hscalar | ⟨pointer, _, hp⟩
      · exact hscalar.elim
      · -- the members of a reference are texts, which hold no items
        cases hp
        have hm := Fields.mem_of_get? hstored
        simp only [List.mem_cons, List.not_mem_nil, or_false, Prod.mk.injEq] at hm
        rcases hm with ⟨_, rfl⟩ | ⟨_, rfl⟩ | ⟨_, rfl⟩ <;> cases hin
    · rw [Fields.contains_eq_false_iff.2 hop] at hcontains
      cases hcontains
    · cases hs
      obtain ⟨other, hm, hother⟩ :=
        (Native.mem_nestedMembers hcolumns).1 (Fields.mem_of_get? hstored)
      cases hwhole.symm.trans (Fields.get?_of_mem hnodup hm)
      exact ih hother

theorem elementIn_not_operation {whole : Rest} {stored : Native}
    (h : ElementIn value native whole stored) : ∀ members, whole = .object members →
      Fields.contains members operationKey = false := by
  rintro members rfl
  cases h with
  | member _ hop _ _ _ => exact Fields.contains_eq_false_iff.2 hop

/-- A field that is not stored as given is created as a nested value unless it is an atom. -/
theorem nested_of_created {target : Target} {key : String} {whole : Rest}
    {column : String × Native} (hv : Create.verbatimColumn? key = none)
    (ha : Native.columnAtom? none whole = .ok none)
    (h : Create.column? target key whole = .ok (some column)) :
    Native.nested (Create.guard target) whole = .ok (some column.2) := by
  have hatom := Native.columnAtom?_eq_none (target.schema.field? key) ha
  unfold Create.column? at h
  rw [hv] at h
  dsimp only at h
  split at h
  · obtain ⟨_, ht, _⟩ := Outcome.map_eq_ok.1 h
    unfold Create.timeValue at ht
    split at ht
    · cases ha
    · rw [hatom] at ht
      cases ht
  · split at h
    · cases h
    · obtain ⟨result, hr, he⟩ := Outcome.map_eq_ok.1 h
      obtain ⟨native, rfl, rfl⟩ := Option.map_eq_some_iff.1 he
      unfold Create.plainValue? at hr
      rw [hatom] at hr
      exact hr

/-- A field is replaced by a nested value unless its value is an atom or asks for an operation. -/
theorem nested_of_replaced {target : Target} {key : String} {whole : Rest}
    {contribution : Update.Contribution} (ha : Native.columnAtom? none whole = .ok none)
    (hno : ∀ members, whole = .object members → Fields.contains members operationKey = false)
    (h : Update.field? target key whole = .ok (some contribution)) :
    Native.nested (Update.guard target) whole = .ok (some contribution.argument) := by
  have hatom := Native.columnAtom?_eq_none (target.schema.field? key) ha
  rcases Update.field?_cases h with ⟨_, _, _, _, ⟨_, rfl⟩ | ⟨_, rfl⟩⟩ | ⟨column, hvalue⟩
  · cases ha
  · cases ha
  · rcases Update.value?_cases hvalue with ⟨_, hsome, _⟩ | ⟨_, ⟨members, _, he, hop, _⟩ |
      ⟨_, native, hn, rfl⟩⟩
    · cases hatom.symm.trans hsome
    · cases hop.symm.trans (hno members he)
    · exact hn

/-- **Whatever way an element goes into the store**, the walk of nested values decides its form. -/
theorem nested_of_stores (h : StoresElement value native) :
    ∃ guard result, Native.nested guard value = .ok result ∧ native = result.getD .null := by
  cases h with
  | @created target key column whole stored hp hv ha hd hin =>
    rw [Create.document_single hp] at hd
    split at hd
    · cases hd
    · obtain ⟨own, hc, ho⟩ := Outcome.map_eq_ok.1 hd
      obtain rfl : own = some (column, stored) := by
        cases own with
        | none => cases ho
        | some own => rw [List.singleton_inj.1 ho]
      exact nested_of_elementIn hin (nested_of_created hv ha hc)
  | @replaced target key column whole stored hp ha hd hin =>
    obtain ⟨operator, _, hf⟩ := Update.document_single hp hd
    exact nested_of_elementIn hin (nested_of_replaced ha (elementIn_not_operation hin) hf)

/-! ## Into updates and queries -/

/-- An operator document that does not set comes from an operation. -/
theorem operation_of_document {target : Target} {key token column : String} {members : Fields Rest}
    {argument : Native} (hp : Create.isPermissionKey key = false) (hset : token ≠ "$set")
    (h : Update.document target [(key, .object members)] =
      .ok [(token, .document [(column, argument)])]) :
    ∃ operation operator, Operation.ofMembers members = .ok operation ∧
      operation.update (Update.guard target) = .ok ⟨operator, argument⟩ := by
  obtain ⟨operator, rfl, hf⟩ := Update.document_single hp h
  rcases Update.field?_cases hf with ⟨_, _, he, _⟩ | ⟨name, hvalue⟩
  · cases he
    exact absurd rfl hset
  · rcases Update.value?_cases hvalue with ⟨_, _, he⟩ | ⟨_, ⟨members, operation, hm, _, ho, hu⟩ |
      ⟨_, _, _, he⟩⟩
    · cases he
      exact absurd rfl hset
    · cases hm
      exact ⟨operation, operator, ho, hu⟩
    · cases he
      exact absurd rfl hset

/-- What a compiled constraint holds under the token of an operator that writes there alone comes
from that operator of the request. -/
def Answers (scope : Constraint.Scope) (constraint : Fields Rest) (answer : Document) : Prop :=
  ∀ operator : ConstraintOperator, operator.token ∉ Constraint.sharedNames →
    operator.token ∉ Constraint.searchKeys → ∀ native,
      Fields.get? answer operator.token = some native →
        ∃ operand, Fields.get? constraint operator.token = some operand ∧
          Constraint.entry? scope constraint operator operand = .ok (some (operator.token, native))

/-- A query for one field holds its whole constraint, or the text search of that. -/
theorem answerIn_constraintEntry {column : String} {compiled answer : Document}
    (h : AnswerIn answer [Where.constraintEntry column compiled]) :
    answer = compiled ∨ Fields.get? compiled ConstraintOperator.text.token =
      some (.document answer) := by
  obtain ⟨name, h⟩ := h
  replace h := h.imp List.singleton_inj.1 List.singleton_inj.1
  unfold Where.constraintEntry at h
  split at h
  · rename_i search htext
    rcases h with h | h
    · cases h
      exact .inr htext
    · exact absurd (Prod.mk.inj h).1 (by decide)
  · refine .inl ?_
    split at h
    · rcases h with h | h
      · cases h
      · cases h
        rfl
    · rcases h with h | h
      · cases h
        rfl
      · cases h

theorem answers_of_entries {scope : Constraint.Scope} {constraint : Fields Rest}
    {column : String} {owns answer : Document}
    (h : Constraint.entries scope constraint ConstraintOperator.order = .ok owns)
    (hanswer : AnswerIn answer [Where.constraintEntry column (Fields.ofList owns)]) :
    Answers scope constraint answer := by
  intro operator hshared hsearch native hget
  rcases answerIn_constraintEntry hanswer with rfl | htext
  · exact Constraint.entry_of_get? h hshared hget
  · -- the search alone is left of the constraint, and it compares no elements
    obtain ⟨operand, _, he⟩ := Constraint.entry_of_get? h (by decide) htext
    obtain ⟨_, hcompiled, hn⟩ := Constraint.own_eq_ok he
    obtain ⟨columns, hcolumns, rfl⟩ := Outcome.map_eq_ok.1 hcompiled
    cases hn
    have hkey : operator.token ∈ Fields.keys answer :=
      List.mem_map_of_mem (Fields.mem_of_get? hget)
    exact absurd (Constraint.keys_textSearch hcolumns _ hkey) hsearch

/-- The query for an array field answers its constraint. -/
theorem answers_of_document {scope : Where.Scope} {key : String} {constraint : Fields Rest}
    {query answer : Document} (ha : scope.target.schema.fieldIs key .array = true)
    (hid : key ≠ objectIdKey) (hv : Where.verbatimColumn? key = none)
    (hkeys : ∀ name ∈ Fields.keys constraint, Constraint.isOperatorKey name = true)
    (h : Where.document scope [(key, .object constraint)] = .ok query)
    (hanswer : AnswerIn answer query) :
    ∃ inner : Constraint.Scope, inner.fieldIs .array = true ∧ Answers inner constraint answer := by
  obtain ⟨own, hown, rfl⟩ := Where.document_single h
  unfold Where.entry at hown
  split at hown
  · cases hown
  have htime : Where.timeText? key (.object constraint) = none := rfl
  unfold Where.fieldEntry at hown
  rw [if_neg hid, hv] at hown
  unfold Where.plainEntry at hown
  rw [htime] at hown
  dsimp only at hown
  split at hown
  · cases hown
  · rename_i compiled hc
    obtain ⟨owns, howns, he⟩ := Constraint.compile?_object hkeys hc
    cases he
    cases hown
    exact ⟨⟨scope.target.schema.field? key, scope.count, scope.now, Where.guardAt scope 0⟩, ha,
      answers_of_entries howns hanswer⟩
  · rename_i hc
    obtain ⟨_, _, he⟩ := Constraint.compile?_object hkeys hc
    cases he

/-- What an array field is compared with is an element. -/
theorem element_of_compared {scope : Constraint.Scope} {constraint : Fields Rest}
    {answer : Document} (ha : scope.fieldIs .array = true)
    (hanswers : Answers scope constraint answer) (h : ComparedAs constraint answer value native) :
    Native.element scope.guard value = .ok native := by
  cases h with
  | all hitems hnatives hvalue hnative =>
    obtain ⟨operand, ho, he⟩ := hanswers .all (by decide) (by decide) _ hnatives
    obtain ⟨items, natives, rfl, hn, helements⟩ := Constraint.all_operand he
    cases hn
    cases hitems.symm.trans ho
    exact related_at (Native.elements_forall₂ helements) hvalue hnative
  | @membership token items natives i htoken hitems hnatives hvalue hnative =>
    obtain ⟨operator, hop, rfl⟩ : ∃ operator : ConstraintOperator,
        (operator = .isIn ∨ operator = .notIn) ∧ operator.token = token := by
      rcases htoken with rfl | rfl
      · exact ⟨.isIn, .inl rfl, rfl⟩
      · exact ⟨.notIn, .inr rfl, rfl⟩
    obtain ⟨operand, ho, he⟩ := hanswers operator (by rcases hop with rfl | rfl <;> decide)
      (by rcases hop with rfl | rfl <;> decide) _ hnatives
    obtain ⟨_, _, rfl, hn, helements⟩ := Constraint.membership_operand ha hop he
    cases hn
    cases hitems.symm.trans ho
    exact related_at (Native.elements_forall₂ helements) hvalue hnative
  | @comparison token htoken hvalue hnative =>
    obtain ⟨operator, hop, rfl⟩ : ∃ operator : ConstraintOperator,
        (operator = .equal ∨ operator = .notEqual) ∧ operator.token = token := by
      rcases htoken with rfl | rfl
      · exact ⟨.equal, .inl rfl, rfl⟩
      · exact ⟨.notEqual, .inr rfl, rfl⟩
    obtain ⟨operand, ho, he⟩ := hanswers operator (by rcases hop with rfl | rfl <;> decide)
      (by rcases hop with rfl | rfl <;> decide) _ hnative
    cases hvalue.symm.trans ho
    exact Constraint.comparison_operand ha hop he

/-- The operations that carry a list of elements. -/
theorem ofMembers_list {members : Fields Rest} {items : List Rest} {name : String}
    {operation : Operation} (hop : Fields.get? members operationKey = some (.string name))
    (hitems : Fields.get? members "objects" = some (.array items))
    (h : Operation.ofMembers members = .ok operation) :
    (name = "Add" → operation = .add items) ∧ (name = "AddUnique" → operation = .addUnique items) ∧
      (name = "Remove" → operation = .remove items) := by
  refine ⟨?_, ?_, ?_⟩ <;> rintro rfl <;>
    simpa [Operation.ofMembers, hop, Rest.text?, Operation.items, hitems, Except.map, eq_comm]
      using h

/-- **Whatever way an element goes into an update or a query**, it is an atom or sent as given. -/
theorem element_of_sends (h : SendsElement value native) :
    ∃ guard, Native.element guard value = .ok native := by
  cases h with
  | @added target key column members items natives i name token hname hp hop hitems hd hvalue
      hnative =>
    have hset : token ≠ "$set" := by rcases hname with ⟨_, rfl⟩ | ⟨_, rfl⟩ <;> decide
    obtain ⟨operation, operator, ho, hu⟩ := operation_of_document hp hset hd
    obtain ⟨hadd, hunique, _⟩ := ofMembers_list hop hitems ho
    have helements : Native.elements (Update.guard target) items = .ok natives := by
      rcases hname with ⟨hname, _⟩ | ⟨hname, _⟩
      · rw [hadd hname] at hu
        obtain ⟨elements, he, hu⟩ := Outcome.map_eq_ok.1 hu
        cases hu
        exact he
      · rw [hunique hname] at hu
        obtain ⟨elements, he, hu⟩ := Outcome.map_eq_ok.1 hu
        cases hu
        exact he
    exact ⟨_, related_at (Native.elements_forall₂ helements) hvalue hnative⟩
  | @removed target key column members items natives i hp hop hitems hd hvalue hnative =>
    obtain ⟨operation, operator, ho, hu⟩ := operation_of_document hp (by decide) hd
    rw [(ofMembers_list hop hitems ho).2.2 rfl] at hu
    obtain ⟨elements, he, hu⟩ := Outcome.map_eq_ok.1 hu
    cases hu
    exact ⟨_, related_at (Native.elements_forall₂ he) hvalue hnative⟩
  | @compared scope key constraint query answer ha hid hv hkeys hd hanswer hcompared =>
    obtain ⟨inner, hinner, hanswers⟩ := answers_of_document ha hid hv hkeys hd hanswer
    exact ⟨_, element_of_compared hinner hanswers hcompared⟩

/-- **An element of an array is stored in one native form and sent in one native form**, and the
two are the same where it is an atom inside arrays or nothing in it converts. -/
theorem element_forms (hop : ¬HasKey value operationKey) :
    (∀ first second, StoresElement value first → StoresElement value second → first = second) ∧
      (∀ first second, SendsElement value first → SendsElement value second → first = second) ∧
      ∀ stored sent, StoresElement value stored → SendsElement value sent →
        (stored = sent ↔ Native.OneForm value) := by
  refine ⟨?_, ?_, ?_⟩
  · intro first second hf hs
    obtain ⟨_, result, hr, rfl⟩ := nested_of_stores hf
    obtain ⟨_, other, ho, rfl⟩ := nested_of_stores hs
    rw [Native.nested_unique hr ho]
  · intro first second hf hs
    obtain ⟨_, hf⟩ := element_of_sends hf
    obtain ⟨_, hs⟩ := element_of_sends hs
    exact Native.element_unique hf hs
  · intro stored sent hstored hsent
    obtain ⟨_, result, hr, rfl⟩ := nested_of_stores hstored
    obtain ⟨_, he⟩ := element_of_sends hsent
    exact Native.nested_eq_element_iff hop hr he

end

/-- A class with a list of visits. -/
def guestTarget : Target := ⟨"Guest", .ofFields [("visits", ⟨.array, none⟩)], .standard⟩

/-- Queries on that class. -/
def guestScope : Where.Scope := ⟨guestTarget, false, ⟨0, 0⟩⟩

/-- A visit with its day. -/
def visit : Rest :=
  .object [("day", .tagged Instant.kind [("iso", .string "2020-01-01T00:00:00.000Z")])]

/-- A visit as it is stored. -/
def storedVisit : Native := .document [("day", .date 1577836800000)]

/-- A visit as it is sent for an element. -/
def sentVisit : Native :=
  .document [("day", .document [("__type", .string "Date"),
    ("iso", .string "2020-01-01T00:00:00.000Z")])]

theorem stores_visit : StoresElement visit storedVisit := by
  have hin : ElementIn visit storedVisit (.array [visit]) (.array [storedVisit]) :=
    @ElementIn.here _ _ [visit] [storedVisit] 0 rfl rfl
  have hcreate : Create.document guestTarget [("visits", .array [visit])] =
      .ok [("visits", .array [storedVisit])] := rfl
  exact .created rfl (by decide) rfl hcreate hin

theorem sends_visit : SendsElement visit sentVisit := by
  have hquery : Where.document guestScope
      [("visits", .object [("$in", .array [visit])])] =
        .ok [("visits", .document [("$in", .array [sentVisit])])] := rfl
  have hcompared : ComparedAs [("$in", .array [visit])] [("$in", .array [sentVisit])] visit
      sentVisit :=
    @ComparedAs.membership _ _ _ _ "$in" [visit] [sentVisit] 0 (.inl rfl) rfl rfl rfl rfl
  exact .compared (by decide) (by decide) (by decide) (by decide) hquery ⟨"visits", .inl rfl⟩
    hcompared

theorem visit_no_operation : ¬HasKey visit operationKey := by
  simp [visit, Rest.hasKey_object_iff, Rest.tagged, operationKey, typeKey, Fields.keys,
    Rest.not_hasKey_scalar]

theorem element_forms_visit :
    ¬HasKey visit operationKey ∧ StoresElement visit storedVisit ∧ SendsElement visit sentVisit ∧
      (storedVisit = sentVisit ↔ Native.OneForm visit) :=
  ⟨visit_no_operation, stores_visit, sends_visit,
    (element_forms visit_no_operation).2.2 _ _ stores_visit sends_visit⟩

/-- An operation on visits. -/
def visitOperation (name : String) : Rest :=
  .object [(operationKey, .string name), ("objects", .array [visit])]

/-- The day of a visit is stored as an instant, but added, removed and looked for as an envelope. -/
theorem visit_forms_differ :
    (∀ items, visit ≠ .array items) ∧ ¬HasKey visit operationKey ∧
      Create.document guestTarget [("visits", .array [visit])] =
        .ok [("visits", .array [storedVisit])] ∧
      Update.document guestTarget [("visits", .array [visit])] =
        .ok [("$set", .document [("visits", .array [storedVisit])])] ∧
      Update.document guestTarget [("visits", visitOperation "Add")] =
        .ok [("$push", .document [("visits", .document [("$each", .array [sentVisit])])])] ∧
      Update.document guestTarget [("visits", visitOperation "Remove")] =
        .ok [("$pullAll", .document [("visits", .array [sentVisit])])] ∧
      Where.document guestScope [("visits", .object [("$in", .array [visit])])] =
        .ok [("visits", .document [("$in", .array [sentVisit])])] ∧
      storedVisit ≠ sentVisit :=
  ⟨fun _ => nofun, visit_no_operation, rfl, rfl, rfl, rfl, rfl, nofun⟩

end RestStore
