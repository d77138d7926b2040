import RestStore.Proofs.Write.Partition

/-!
# Documents that are equal up to order

What two requests store or send is the same when their documents have the same columns, whatever
their order. The older map of permissions is compared without the order of its entries.

* `SameColumns`, `SameOperators` — equal documents, and equal operator documents.
* `sameColumns_insertAll`, `SameColumns.insert_older` — columns written one after the other.
* `sameOperators_collect` — contributions collected by operator.
* `Agrees` — two requests are accepted alike or both refused.
-/

set_option autoImplicit false

namespace RestStore

/-- Two values of a column that are equal. The entries of the older map may stand in another
order. -/
def SameValue (column : String) (first second : Native) : Prop :=
  first = second ∨ column = legacyAclColumn ∧ ∃ grants others : Document,
    first = .document grants ∧ second = .document others ∧ grants.Perm others

/-- Two documents with the same columns, in any order. -/
structure SameColumns (first second : Document) : Prop where
  nodup_first : (Fields.keys first).Nodup
  nodup_second : (Fields.keys second).Nodup
  same : ∀ column, Option.Rel (SameValue column) (Fields.get? first column)
    (Fields.get? second column)

/-- Two operator documents with the same operators, in any order, and the same columns for each. -/
structure SameOperators (first second : Document) : Prop where
  nodup_first : (Fields.keys first).Nodup
  nodup_second : (Fields.keys second).Nodup
  same : ∀ token, Option.Rel (fun a b => ∃ columns others,
    a = .document columns ∧ b = .document others ∧ SameColumns columns others)
      (Fields.get? first token) (Fields.get? second token)

/-- Two requests are both accepted, with related documents, or both are refused. -/
inductive Agrees (related : Document → Document → Prop) :
    Except Failure Document → Except Failure Document → Prop
  | accepted {first second : Document} : related first second →
    Agrees related (.ok first) (.ok second)
  | refused (first second : Failure) : Agrees related (.error first) (.error second)

theorem Agrees.imp {related weaker : Document → Document → Prop}
    {first second : Except Failure Document} (himp : ∀ a b, related a b → weaker a b)
    (h : Agrees related first second) : Agrees weaker first second := by
  cases h with
  | accepted hr => exact .accepted (himp _ _ hr)
  | refused failure other => exact .refused failure other

theorem sameValue_rel_refl (column : String) (value : Option Native) :
    Option.Rel (SameValue column) value value := by
  cases value with
  | none => exact .none
  | some native => exact .some (.inl rfl)

theorem SameColumns.refl {document : Document} (hn : (Fields.keys document).Nodup) :
    SameColumns document document :=
  ⟨hn, hn, fun column => sameValue_rel_refl column _⟩

/-- **Columns that are written in another order** come out the same, where those that change places
and have one name are the same column. -/
theorem sameColumns_insertAll {first second : Document} (h : SameColumns first second)
    {before between moved : Document}
    (hapart : ∀ own ∈ between, ∀ last ∈ moved, own.1 = last.1 → own = last) :
    SameColumns (Fields.insertAll first (before ++ (between ++ moved)))
      (Fields.insertAll second (before ++ (moved ++ between))) := by
  refine ⟨Fields.nodup_insertAll _ h.nodup_first, Fields.nodup_insertAll _ h.nodup_second,
    fun column => ?_⟩
  have hlast : ((before ++ (between ++ moved)).filter fun entry => entry.1 == column).getLast? =
      ((before ++ (moved ++ between)).filter fun entry => entry.1 == column).getLast? := by
    simp only [List.filter_append, List.getLast?_append]
    cases hm : (moved.filter fun entry => entry.1 == column).getLast? with
    | none => simp
    | some last =>
      cases hb : (between.filter fun entry => entry.1 == column).getLast? with
      | none => simp
      | some own =>
        obtain ⟨hmoved, hname⟩ := List.mem_filter.1 (List.mem_of_getLast? hm)
        obtain ⟨hbetween, hname'⟩ := List.mem_filter.1 (List.mem_of_getLast? hb)
        rw [hapart own hbetween last hmoved ((eq_of_beq hname').trans (eq_of_beq hname).symm)]
  rw [Fields.get?_insertAll, Fields.get?_insertAll, hlast]
  cases ((before ++ (moved ++ between)).filter fun entry => entry.1 == column).getLast? with
  | none => exact h.same column
  | some last => exact .some (.inl rfl)

/-- The older map may be written again, in another order. -/
theorem SameColumns.insert_older {first second grants others : Document}
    (h : SameColumns first second)
    (hfirst : Fields.get? first legacyAclColumn = some (.document grants))
    (hp : grants.Perm others) :
    SameColumns first (Fields.insert second legacyAclColumn (.document others)) := by
  refine ⟨h.nodup_first, Fields.nodup_insertAll [(_, _)] h.nodup_second, fun column => ?_⟩
  by_cases he : legacyAclColumn = column
  · subst he
    rw [hfirst, Fields.get?_insert_self]
    exact .some (.inr ⟨rfl, grants, others, rfl, rfl, hp⟩)
  · rw [Fields.get?_insert_of_ne _ _ he]
    exact h.same column

/-! ## Operator documents -/

namespace Update

theorem columnsOf_append_list (operator : UpdateOperator) (first second : List Contribution) :
    columnsOf operator (first ++ second) =
      columnsOf operator first ++ columnsOf operator second := by
  unfold columnsOf
  rw [List.filter_append, List.map_append]

theorem get?_map_token (document : UpdateOperator → Native) (operator : UpdateOperator) :
    ∀ operators : List UpdateOperator,
      Fields.get? (operators.map fun other => (other.token, document other)) operator.token =
        if operator ∈ operators then some (document operator) else none
  | [] => rfl
  | other :: rest => by
    rw [List.map_cons, Fields.get?_cons, get?_map_token document operator rest]
    by_cases he : other = operator
    · subst he
      simp
    · have hne : other.token ≠ operator.token := fun ht => he (UpdateOperator.token_injective ht)
      rw [if_neg hne]
      simp [Ne.symm he]

/-- The operator document of contributions, operator by operator. -/
theorem collected_eq (entries : List Contribution) :
    ((collect entries).map fun (token, columns) => (token, Native.document columns)) =
      (operatorsOf entries).map fun operator =>
        (operator.token, .document (Fields.ofList (columnsOf operator entries))) := by
  rw [collect_eq_grouped, grouped, List.map_map]
  rfl

/-- Contributions that use the same operators, and give each of them the same columns. -/
theorem sameOperators_collect {first second : List Contribution}
    (hused : ∀ operator, operator ∈ operatorsOf first ↔ operator ∈ operatorsOf second)
    (hsame : ∀ operator, SameColumns (Fields.ofList (columnsOf operator first))
      (Fields.ofList (columnsOf operator second))) :
    SameOperators ((collect first).map fun (token, columns) => (token, .document columns))
      ((collect second).map fun (token, columns) => (token, .document columns)) := by
  have hnodup : ∀ entries : List Contribution, (Fields.keys ((collect entries).map fun
      (token, columns) => (token, Native.document columns))).Nodup := by
    intro entries
    rw [collected_eq, Fields.keys, List.map_map]
    exact (nodup_operatorsOf entries).map fun _ _ => UpdateOperator.token_injective
  refine ⟨hnodup first, hnodup second, fun token => ?_⟩
  rw [collected_eq, collected_eq]
  by_cases ht : ∃ operator : UpdateOperator, operator.token = token
  · obtain ⟨operator, rfl⟩ := ht
    rw [get?_map_token, get?_map_token]
    by_cases hin : operator ∈ operatorsOf first
    · rw [if_pos hin, if_pos ((hused operator).1 hin)]
      exact .some ⟨_, _, rfl, rfl, hsame operator⟩
    · rw [if_neg hin, if_neg fun h => hin ((hused operator).2 h)]
      exact .none
  · have hnone : ∀ entries : List Contribution, Fields.get? ((operatorsOf entries).map fun
        operator => (operator.token, Native.document (Fields.ofList (columnsOf operator entries))))
          token = none := by
      intro entries
      refine (Fields.get?_eq_none_iff _ _).2 fun hk => ht ?_
      obtain ⟨own, hown, rfl⟩ := List.mem_map.1 hk
      obtain ⟨operator, -, rfl⟩ := List.mem_map.1 hown
      exact ⟨operator, rfl⟩
    rw [hnone, hnone]
    exact .none

end Update

/-! ## A request and itself -/

theorem Create.agrees_self (target : Target) (members : Fields Rest) :
    Agrees SameColumns (Create.document target members) (Create.document target members) := by
  cases h : Create.document target members with
  | error failure => exact .refused failure failure
  | ok created =>
    unfold Create.document at h
    split at h
    · cases h
    · rename_i permissions hp
      obtain ⟨columns, -, rfl⟩ := Outcome.map_eq_ok.1 h
      exact .accepted (.refl (Fields.nodup_insertAll _ (Create.nodup_permissionColumns hp)))

theorem Update.agrees_self (target : Target) (members : Fields Rest) :
    Agrees SameOperators (Update.document target members) (Update.document target members) := by
  unfold Update.document
  cases Update.contributions target members with
  | error failure => exact .refused failure failure
  | ok entries =>
    exact .accepted (Update.sameOperators_collect (fun _ => .rfl) fun _ =>
      .refl (Fields.nodup_ofList _))

end RestStore
