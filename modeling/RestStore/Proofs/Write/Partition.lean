import Mathlib.Data.List.Induction
import Mathlib.Data.List.Nodup
import Mathlib.Data.List.Perm.Basic
import RestStore.Proofs.Permission.Runs

/-!
# The fields of an update, operator by operator

The contributions of a request are collected by operator. `collect_eq_grouped` says what comes out,
for every list of contributions: the operators in the order of their first use, and under each of
them its own columns in order. `update_partitions` follows for a request whose columns are distinct:
every column stands under one operator, with the argument that its field contributes alone, and only
the permission lists contribute nothing as fields.

* `place_grouped` — one more contribution joins the columns of its operator.
* `fields_alone` — what the fields of a request contribute, each alone.
* `Partitions` — how an operator document splits up a list of contributions.
-/

set_option autoImplicit false

namespace RestStore

/-- Operators have tokens of their own. -/
theorem UpdateOperator.token_injective {first second : UpdateOperator}
    (h : first.token = second.token) : first = second := by
  cases first <;> cases second <;> first | rfl | exact absurd h (by decide)

namespace Update

/-! ## Grouping contributions -/

/-- The operators of contributions, in the order of their first use. -/
def operatorsOf (entries : List Contribution) : List UpdateOperator :=
  (entries.map (·.operator)).eraseDups

/-- The columns that an operator is to change, in order. -/
def columnsOf (operator : UpdateOperator) (entries : List Contribution) : Document :=
  (entries.filter (·.operator = operator)).map fun entry => (entry.column, entry.argument)

/-- Contributions grouped by operator. -/
def grouped (entries : List Contribution) : Fields Document :=
  (operatorsOf entries).map fun operator =>
    (operator.token, Fields.ofList (columnsOf operator entries))

theorem mem_operatorsOf {entries : List Contribution} {operator : UpdateOperator} :
    operator ∈ operatorsOf entries ↔ ∃ entry ∈ entries, entry.operator = operator := by
  rw [operatorsOf, List.mem_eraseDups, List.mem_map]

theorem operatorsOf_append (entries : List Contribution) (entry : Contribution) :
    operatorsOf (entries ++ [entry]) =
      operatorsOf entries ++
        ([entry.operator].removeAll (entries.map (·.operator))).eraseDups := by
  rw [operatorsOf, List.map_append, List.eraseDups_append]
  rfl

/-- An operator that is in use keeps its place. -/
theorem operatorsOf_used {entries : List Contribution} {entry : Contribution}
    (h : entry.operator ∈ operatorsOf entries) :
    operatorsOf (entries ++ [entry]) = operatorsOf entries := by
  have hm : entry.operator ∈ entries.map (·.operator) := List.mem_eraseDups.1 h
  rw [operatorsOf_append, List.removeAll, List.filter_cons_of_neg (by simpa using hm)]
  simp

/-- An operator that is new comes last. -/
theorem operatorsOf_new {entries : List Contribution} {entry : Contribution}
    (h : entry.operator ∉ operatorsOf entries) :
    operatorsOf (entries ++ [entry]) = operatorsOf entries ++ [entry.operator] := by
  have hm : entry.operator ∉ entries.map (·.operator) := fun hm => h (List.mem_eraseDups.2 hm)
  rw [operatorsOf_append, List.removeAll, List.filter_cons_of_pos (by simpa using hm)]
  simp [List.eraseDups_cons]

theorem nodup_operatorsOf (entries : List Contribution) : (operatorsOf entries).Nodup := by
  induction entries using List.reverseRecOn with
  | nil => exact List.nodup_nil
  | append_singleton entries entry ih =>
    by_cases h : entry.operator ∈ operatorsOf entries
    · rwa [operatorsOf_used h]
    · rw [operatorsOf_new h]
      exact List.concat_eq_append ▸ ih.concat h

theorem columnsOf_append (operator : UpdateOperator) (entries : List Contribution)
    (entry : Contribution) :
    columnsOf operator (entries ++ [entry]) =
      columnsOf operator entries ++
        if entry.operator = operator then [(entry.column, entry.argument)] else [] := by
  unfold columnsOf
  rw [List.filter_append, List.map_append, List.filter_singleton]
  by_cases h : entry.operator = operator <;> simp [h]

theorem columnsOf_eq_nil {operator : UpdateOperator} {entries : List Contribution}
    (h : operator ∉ operatorsOf entries) : columnsOf operator entries = [] := by
  unfold columnsOf
  rw [List.map_eq_nil_iff, List.filter_eq_nil_iff]
  intro entry hm he
  exact h (mem_operatorsOf.2 ⟨entry, hm, of_decide_eq_true he⟩)

theorem nodup_keys_grouped (entries : List Contribution) :
    (Fields.keys (grouped entries)).Nodup := by
  unfold grouped Fields.keys
  rw [List.map_map]
  exact (nodup_operatorsOf entries).map fun _ _ => UpdateOperator.token_injective

theorem operator_of_mem_grouped {entries : List Contribution} {operator : UpdateOperator}
    (h : operator.token ∈ Fields.keys (grouped entries)) : operator ∈ operatorsOf entries := by
  obtain ⟨named, hnamed, htoken⟩ := List.mem_map.1 h
  obtain ⟨other, hother, rfl⟩ := List.mem_map.1 hnamed
  exact UpdateOperator.token_injective htoken ▸ hother

theorem get?_grouped (entries : List Contribution) (operator : UpdateOperator) :
    (Fields.get? (grouped entries) operator.token).getD [] =
      Fields.ofList (columnsOf operator entries) := by
  by_cases h : operator ∈ operatorsOf entries
  · rw [Fields.get?_of_mem (nodup_keys_grouped entries) (List.mem_map_of_mem h)]
    rfl
  · rw [columnsOf_eq_nil h,
      (Fields.get?_eq_none_iff _ _).2 fun hm => h (operator_of_mem_grouped hm)]
    rfl

/-- **One more contribution** joins the columns of its operator. -/
theorem place_grouped (entries : List Contribution) (entry : Contribution) :
    place (grouped entries) entry = grouped (entries ++ [entry]) := by
  have hown : Fields.insert (Fields.ofList (columnsOf entry.operator entries)) entry.column
      entry.argument = Fields.ofList (columnsOf entry.operator (entries ++ [entry])) := by
    rw [columnsOf_append, if_pos rfl, Fields.ofList, Fields.ofList, Fields.insertAll_append]
    rfl
  have hother : ∀ operator ≠ entry.operator,
      columnsOf operator (entries ++ [entry]) = columnsOf operator entries := by
    intro operator hne
    rw [columnsOf_append, if_neg hne.symm, List.append_nil]
  unfold place
  dsimp only
  rw [get?_grouped, hown]
  by_cases h : entry.operator ∈ operatorsOf entries
  · rw [Fields.insert_eq_map (nodup_keys_grouped entries)
      (List.mem_map_of_mem (List.mem_map_of_mem h))]
    unfold grouped
    rw [operatorsOf_used h, List.map_map]
    refine List.map_congr_left fun operator _ => ?_
    dsimp only [Function.comp_apply]
    by_cases he : operator = entry.operator
    · rw [if_pos (congrArg UpdateOperator.token he), he]
    · rw [if_neg fun ht => he (UpdateOperator.token_injective ht), hother operator he]
  · rw [Fields.insert_of_not_mem]
    · unfold grouped
      rw [operatorsOf_new h, List.map_append]
      refine congrArg₂ (· ++ ·) (List.map_congr_left fun operator hm => ?_) rfl
      rw [hother operator fun he => h (he ▸ hm)]
    · exact fun hm => h (operator_of_mem_grouped hm)

/-- **Contributions are collected by operator**, whatever they are. -/
theorem collect_eq_grouped (entries : List Contribution) : collect entries = grouped entries := by
  induction entries using List.reverseRecOn with
  | nil => rfl
  | append_singleton entries entry ih =>
    rw [← place_grouped, ← ih, collect, List.foldl_append]
    rfl

/-! ## What the fields contribute -/

/-- What a field of a request contributes when it is taken alone. The `ACL` and relations are no
fields of the document. -/
def alone? (target : Target) (member : String × Rest) : Option Contribution :=
  if member.1 == aclKey || target.isRelation member.1 member.2 then none
  else (field? target member.1 member.2).toOption.join

/-- What the fields of a request contribute, each taken alone. -/
def written (target : Target) (members : Fields Rest) : List Contribution :=
  members.filterMap (alone? target)

/-- **The fields of a request contribute what each of them does alone**, and none of them fails. -/
theorem fields_alone {target : Target} : ∀ {members : Fields Rest} {entries : List Contribution},
    fields target members = .ok entries →
      entries = written target members ∧
        ∀ member ∈ members, member.1 ≠ aclKey → target.isRelation member.1 member.2 = false →
          ∃ own, field? target member.1 member.2 = .ok own
  | [], _, h => by
    cases h
    exact ⟨rfl, fun _ hm => nomatch hm⟩
  | (key, value) :: rest, entries, h => by
    unfold fields at h
    unfold written
    rw [List.filterMap_cons, alone?]
    split at h
    · rename_i hskip
      obtain ⟨rfl, hok⟩ := fields_alone h
      rw [if_pos hskip]
      refine ⟨rfl, List.forall_mem_cons.2 ⟨fun hacl hrelation => ?_, hok⟩⟩
      simp [hacl, hrelation] at hskip
    · rename_i hkept
      split at h
      · cases h
      · rename_i own hown
        obtain ⟨later, hl, rfl⟩ := Outcome.map_eq_ok.1 h
        obtain ⟨rfl, hok⟩ := fields_alone hl
        rw [if_neg hkept, hown]
        refine ⟨?_, List.forall_mem_cons.2 ⟨fun _ _ => ⟨own, hown⟩, hok⟩⟩
        cases own <;> rfl

/-! ## Partitions -/

/-- A contribution as it stands in an operator document. -/
def Contribution.triple (entry : Contribution) : String × String × Native :=
  (entry.operator.token, entry.column, entry.argument)

/-- The columns that an operator document changes, each with its operator and argument. -/
def triples (update : Document) : List (String × String × Native) :=
  update.flatMap fun entry =>
    match entry.2 with
    | .document columns => columns.map fun column => (entry.1, column.1, column.2)
    | _ => []

/-- An operator document splits up a list of contributions. -/
structure Partitions (entries : List Contribution) (update : Document) : Prop where
  /-- The operators stand in the order of their first use, each with its columns in order. -/
  documents : update = (operatorsOf entries).map fun operator =>
    (operator.token, .document (columnsOf operator entries))
  /-- No operator is without columns. -/
  nonempty : ∀ operator ∈ operatorsOf entries, columnsOf operator entries ≠ []
  /-- Every contribution stands there once, and nothing else does. -/
  triples : (triples update).Perm (entries.map Contribution.triple)
  /-- No column stands under two operators, or twice under one. -/
  distinct : ((Update.triples update).map (·.2.1)).Nodup

/-- Contributions are what stands under the operators that they use. -/
theorem perm_flatMap_filter : ∀ {operators : List UpdateOperator} {entries : List Contribution},
    operators.Nodup → (∀ entry ∈ entries, entry.operator ∈ operators) →
      (operators.flatMap fun operator => entries.filter (·.operator = operator)).Perm entries
  | [], entries, _, h => by
    cases entries with
    | nil => exact .nil
    | cons entry rest => exact absurd (h entry List.mem_cons_self) List.not_mem_nil
  | operator :: operators, entries, hn, h => by
    rw [List.nodup_cons] at hn
    -- the other operators see only the contributions that are not those of the first one
    have hrest : ∀ other ∈ operators, entries.filter (·.operator = other) =
        (entries.filter fun entry => !decide (entry.operator = operator)).filter
          (·.operator = other) := by
      intro other ho
      rw [List.filter_filter]
      refine List.filter_congr fun entry _ => ?_
      by_cases he : entry.operator = other
      · have hne : entry.operator ≠ operator := fun hs => hn.1 (hs ▸ he ▸ ho)
        simp [he, he ▸ hne]
      · simp [he]
    have hperm : (operators.flatMap fun other => entries.filter (·.operator = other)).Perm
        (entries.filter fun entry => !decide (entry.operator = operator)) := by
      rw [List.flatMap_congr hrest]
      refine perm_flatMap_filter hn.2 fun entry hm => ?_
      obtain ⟨hmem, hne⟩ := List.mem_filter.1 hm
      exact (List.mem_cons.1 (h entry hmem)).resolve_left (by simpa using hne)
    rw [List.flatMap_cons]
    exact (hperm.append_left _).trans (List.filter_append_perm _ entries)

theorem triples_grouped (operators : List UpdateOperator) (entries : List Contribution) :
    triples (operators.map fun operator =>
      (operator.token, .document (columnsOf operator entries))) =
        (operators.flatMap fun operator => entries.filter (·.operator = operator)).map
          Contribution.triple := by
  unfold triples
  rw [List.flatMap_map, List.map_flatMap]
  refine List.flatMap_congr fun operator _ => ?_
  dsimp only
  rw [columnsOf, List.map_map]
  refine List.map_congr_left fun entry hm => ?_
  have hoperator : entry.operator = operator := of_decide_eq_true (List.mem_filter.1 hm).2
  rw [← hoperator]
  rfl

/-- **Contributions to distinct columns** are split up by operator. -/
theorem collect_partitions {entries : List Contribution} (hn : (entries.map (·.column)).Nodup) :
    Partitions entries
      ((collect entries).map fun (token, columns) => (token, .document columns)) := by
  have hdocuments : ((collect entries).map fun (token, columns) =>
      (token, Native.document columns)) = (operatorsOf entries).map fun operator =>
        (operator.token, .document (columnsOf operator entries)) := by
    rw [collect_eq_grouped, grouped, List.map_map]
    refine List.map_congr_left fun operator _ => ?_
    have hcolumns : (Fields.keys (columnsOf operator entries)).Nodup := by
      rw [Fields.keys, columnsOf, List.map_map]
      exact hn.sublist (List.filter_sublist.map _)
    dsimp only [Function.comp_apply]
    rw [Fields.ofList_of_nodup hcolumns]
  have hperm : ((operatorsOf entries).flatMap fun operator =>
      entries.filter (·.operator = operator)).Perm entries :=
    perm_flatMap_filter (nodup_operatorsOf entries) fun entry hm =>
      mem_operatorsOf.2 ⟨entry, hm, rfl⟩
  have htriples : (triples ((collect entries).map fun (token, columns) =>
      (token, .document columns))).Perm (entries.map Contribution.triple) := by
    rw [hdocuments, triples_grouped]
    exact hperm.map _
  refine ⟨hdocuments, fun operator ho he => ?_, htriples, ?_⟩
  · obtain ⟨entry, hm, hoperator⟩ := mem_operatorsOf.1 ho
    rw [columnsOf, List.map_eq_nil_iff, List.filter_eq_nil_iff] at he
    exact he entry hm (decide_eq_true hoperator)
  · rw [(htriples.map _).nodup_iff, List.map_map]
    exact hn

/-- **An update splits up its fields by operator.** Where the columns of the fields are distinct and
hold no permissions, every column stands under one operator, with the argument that its field
contributes alone. Of the fields, only the permission lists contribute nothing: they give permission
columns. -/
theorem update_partitions {target : Target} {members : Fields Rest} {update : Document}
    (h : document target members = .ok update)
    (hn : ((written target members).map (·.column)).Nodup)
    (hfree : ∀ entry ∈ written target members,
      entry.column ∉ [readersColumn, writersColumn, legacyAclColumn]) :
    ∃ permissions, Create.permissionColumns members = .ok permissions ∧
      (∀ member ∈ members, member.1 ≠ aclKey → target.isRelation member.1 member.2 = false →
        ∃ own, field? target member.1 member.2 = .ok own ∧
          (own = none ↔ member.1 = readersColumn ∨ member.1 = writersColumn)) ∧
      Partitions (permissions.map (fun (column, native) => setColumn column native) ++
        written target members) update := by
  obtain ⟨entries, he, rfl⟩ := Outcome.map_eq_ok.1 h
  unfold contributions at he
  split at he
  · cases he
  · rename_i permissions hp
    obtain ⟨fieldEntries, hf, rfl⟩ := Outcome.map_eq_ok.1 he
    obtain ⟨rfl, hok⟩ := fields_alone hf
    refine ⟨permissions, hp, ?_, collect_partitions ?_⟩
    · intro member hm hacl hrelation
      obtain ⟨own, hown⟩ := hok member hm hacl hrelation
      exact ⟨own, hown, field?_eq_none_iff hown⟩
    · rw [List.map_append, List.map_map]
      refine List.nodup_append.2 ⟨Create.nodup_permissionColumns hp, hn, ?_⟩
      intro column hc other ho hsame
      obtain ⟨own, hown, rfl⟩ := List.mem_map.1 hc
      obtain ⟨entry, hentry, rfl⟩ := List.mem_map.1 ho
      have hname : own.1 ∈ [readersColumn, writersColumn, legacyAclColumn] := by
        rcases Create.mem_permissionColumns hp hown with hl | ⟨hl | hl, _⟩ <;> simp [hl]
      exact hfree entry hentry (hsame ▸ hname)

/-- A class of orders, with the things that are ordered and those who share in an order. -/
def orderTarget : Target :=
  ⟨"Order", .ofFields [("items", ⟨.array, none⟩), ("sharers", ⟨.relation, some "_User"⟩)],
    .standard⟩

/-- An order that is raised by two, gets an item, a price and an owner, and loses its coupon. -/
def raisedOrder : Fields Rest :=
  [("total", .object [("__op", .string "Increment"), ("amount", .number (.integer 2))]),
    ("items", .object [("__op", .string "Add"), ("objects", .array [.string "tea"])]),
    ("price", .number (.integer 7)), ("sharers", .null),
    ("coupon", .object [("__op", .string "Delete")]),
    ("count", .object [("__op", .string "Increment"), ("amount", .number (.integer 1))]),
    (aclKey, .object [("ann", .object [("read", .bool true), ("write", .bool true)])])]

theorem update_partitions_order :
    ∃ update, document orderTarget raisedOrder = .ok update ∧
      ((written orderTarget raisedOrder).map (·.column)).Nodup ∧
      (∀ entry ∈ written orderTarget raisedOrder,
        entry.column ∉ [readersColumn, writersColumn, legacyAclColumn]) ∧
      ∃ permissions, Create.permissionColumns raisedOrder = .ok permissions ∧
        (∀ member ∈ raisedOrder, member.1 ≠ aclKey →
          orderTarget.isRelation member.1 member.2 = false →
            ∃ own, field? orderTarget member.1 member.2 = .ok own ∧
              (own = none ↔ member.1 = readersColumn ∨ member.1 = writersColumn)) ∧
        Partitions (permissions.map (fun (column, native) => setColumn column native) ++
          written orderTarget raisedOrder) update := by
  have hpermissions : Create.permissionColumns raisedOrder = .ok (ownedBy "ann") :=
    permissionColumns_owned rfl
  have hupdate : document orderTarget raisedOrder = .ok
      [("$set", .document (ownedBy "ann" ++ [("price", .int32 7)])),
        ("$inc", .document [("total", .int32 2), ("count", .int32 1)]),
        ("$push", .document [("items", .document [("$each", .array [.string "tea"])])]),
        ("$unset", .document [("coupon", .string "")])] := by
    rw [document, contributions, hpermissions]
    rfl
  have hcolumns : (written orderTarget raisedOrder).map (·.column) =
      ["total", "items", "price", "coupon", "count"] := rfl
  have hn : ((written orderTarget raisedOrder).map (·.column)).Nodup := by
    rw [hcolumns]
    decide
  have hfree : ∀ entry ∈ written orderTarget raisedOrder,
      entry.column ∉ [readersColumn, writersColumn, legacyAclColumn] := by
    intro entry hm
    have hname : entry.column ∈ ["total", "items", "price", "coupon", "count"] :=
      hcolumns ▸ List.mem_map_of_mem hm
    have hall : ∀ name ∈ ["total", "items", "price", "coupon", "count"],
        name ∉ [readersColumn, writersColumn, legacyAclColumn] := by decide
    exact hall entry.column hname
  exact ⟨_, hupdate, hn, hfree, update_partitions hupdate hn hfree⟩

end Update

end RestStore
