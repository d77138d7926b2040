import RestStore.Proofs.Constraint.Names
import RestStore.Proofs.Where.Clauses

/-!
# The operators of a field

The operators of a constraint on a field are compiled together, and the entry of the field holds all
of them. `operators_stay_together` says where a find holds that entry, of every field in every
clause inside a where clause:

* under the column of the field, at the level of the clause;
* inside `$nor`, all operators at once, beside a `$containedBy`;
* a `$text` beside other operators is held at the level of the clause, and the others are dropped.

`ConstraintEntry` describes the entry, `constraint_entry` says that every constraint has such an
entry, and `holdsEntry` is the step from the entry to the query of its clause.
-/

set_option autoImplicit false

namespace RestStore.Where

/-- Whether the value of a key is matched as given, be it a constraint or not. -/
def IsGiven (key : String) : Prop := key = objectIdKey ∨ (verbatimColumn? key).isSome = true

/-- What the constraint of a field is compiled for. -/
def constraintScope (scope : Scope) (guard : Nesting) (key : String) : Constraint.Scope :=
  ⟨scope.target.schema.field? key, scope.count, scope.now, guard⟩

/-- The entry of a constraint on a field. -/
inductive ConstraintEntry (scope : Scope) (guard : Nesting) (key : String)
    (operators : Fields Rest) : String × Native → Prop
  /-- The constraint as it was given. -/
  | given {native : Native} :
    IsGiven key → Native.verbatim guard (.object operators) = .ok native →
      ConstraintEntry scope guard key operators (column scope.target.schema key, native)
  /-- All operators under the column of the field. -/
  | together {compiled : Document} :
    Fields.contains operators ConstraintOperator.text.token = false →
      Fields.contains operators ConstraintOperator.containedBy.token = false →
        Constraint.HoldsOperators (constraintScope scope guard key) operators compiled →
          ConstraintEntry scope guard key operators
            (column scope.target.schema key, .document compiled)
  /-- All operators under the column of the field, negated. -/
  | negated {compiled : Document} :
    Fields.contains operators ConstraintOperator.text.token = false →
      Fields.contains operators ConstraintOperator.containedBy.token = true →
        Constraint.HoldsOperators (constraintScope scope guard key) operators compiled →
          ConstraintEntry scope guard key operators
            (norKey, .array [.document [(column scope.target.schema key, .document compiled)]])
  /-- The text search alone. -/
  | searched {operand : Rest} {search : Native} :
    Fields.get? operators ConstraintOperator.text.token = some operand →
      entry scope guard key (.object [(ConstraintOperator.text.token, operand)]) =
          .ok (ConstraintOperator.text.token, search) →
        ConstraintEntry scope guard key operators (ConstraintOperator.text.token, search)

/-- Some later key of a clause is compiled to an entry of a name. -/
def Overwritten (scope : Scope) (guard : Nesting) (after : Fields Rest) (name : String) : Prop :=
  ∃ later ∈ after, ∃ other, entry scope guard later.1 later.2 = .ok other ∧ other.1 = name

/-- The query of a clause holds an entry: negated clauses stand among others under `$nor`, and any
other entry stands under its name, unless a later key of the clause overwrites it. -/
inductive HoldsEntry (scope : Scope) (guard : Nesting) (after : Fields Rest) (query : Document) :
    String × Native → Prop
  | negated {clauses : List Native} : HoldsClauses query norKey clauses →
    HoldsEntry scope guard after query (norKey, .array clauses)
  | plain {own : String × Native} : own.1 ≠ norKey →
    (¬Overwritten scope guard after own.1 → Fields.get? query own.1 = some own.2) →
      HoldsEntry scope guard after query own

section

variable {scope : Scope} {guard : Nesting} {key : String} {operators : Fields Rest}

/-! ## The entry of a constraint -/

theorem entry_of_field (hc : isCombinator key = false) (value : Rest) :
    entry scope guard key value = fieldEntry scope guard key value := by
  unfold entry
  rw [if_neg (by simp [hc])]

theorem not_isGiven : ¬IsGiven key ↔ key ≠ objectIdKey ∧ verbatimColumn? key = none := by
  unfold IsGiven
  rw [not_or, Bool.not_eq_true, Option.isSome_eq_false_iff, Option.isNone_iff_eq_none]

theorem entry_of_given (hc : isCombinator key = false) (hgiven : IsGiven key) :
    entry scope guard key (.object operators) =
      (Native.verbatim guard (.object operators)).map fun native =>
        (column scope.target.schema key, native) := by
  rw [entry_of_field hc]
  unfold fieldEntry column
  rw [if_neg (show ¬isCombinator key = true by simp [hc])]
  by_cases hid : key = objectIdKey
  · rw [if_pos hid, if_pos hid]
    rfl
  · obtain ⟨name, hname⟩ := Option.isSome_iff_exists.1 (hgiven.resolve_left hid)
    rw [if_neg hid, if_neg hid, hname]
    rfl

/-- A constraint is compiled at the column of its field. -/
theorem entry_of_not_given (hc : isCombinator key = false) (hgiven : ¬IsGiven key)
    (hkeys : ∀ name ∈ Fields.keys operators, Constraint.isOperatorKey name = true) :
    entry scope guard key (.object operators) =
      (Constraint.compile? (constraintScope scope guard key) (.object operators)).map
        fun compiled => constraintEntry (column scope.target.schema key) (compiled.getD []) := by
  obtain ⟨hid, hverbatim⟩ := not_isGiven.1 hgiven
  have htime : timeText? key (.object operators) = none := rfl
  rw [entry_of_field hc]
  unfold fieldEntry column plainEntry constraintScope
  rw [if_neg hid, if_neg (show ¬isCombinator key = true by simp [hc]), if_neg hid, hverbatim]
  simp only [htime, Option.getD_none]
  split
  · rename_i hresult
    rw [hresult]
    rfl
  · rename_i hresult
    rw [hresult]
    rfl
  · rename_i hresult
    obtain ⟨_, _, hsome⟩ := Constraint.compile?_object hkeys hresult
    cases hsome

/-- **The entry of a constraint.** -/
theorem constraint_entry (hfind : scope.count = false) (hc : isCombinator key = false)
    (hkeys : ∀ name ∈ Fields.keys operators, Constraint.isOperatorKey name = true)
    {own : String × Native} (h : entry scope guard key (.object operators) = .ok own) :
    ConstraintEntry scope guard key operators own := by
  by_cases hgiven : IsGiven key
  · rw [entry_of_given hc hgiven] at h
    obtain ⟨native, hnative, rfl⟩ := Outcome.map_eq_ok.1 h
    exact .given hgiven hnative
  · rw [entry_of_not_given hc hgiven hkeys] at h
    obtain ⟨result, hresult, rfl⟩ := Outcome.map_eq_ok.1 h
    obtain ⟨owns, howns, rfl⟩ := Constraint.compile?_object hkeys hresult
    have hinner : (constraintScope scope guard key).count = false := hfind
    have hholds := Constraint.holdsOperators hinner howns
    have hnegated : Fields.contains (Fields.ofList owns) "$elemMatch" =
        Fields.contains operators ConstraintOperator.containedBy.token :=
      Constraint.contains_found hinner howns .containedBy rfl
    rw [Option.getD_some]
    unfold constraintEntry
    split
    · rename_i search hsearch
      obtain ⟨operand, hoperand, hown⟩ :=
        @Constraint.entry_of_get? _ _ .text _ _ howns (by decide) hsearch
      refine .searched hoperand ?_
      have htoken : ∀ name ∈ Fields.keys [(ConstraintOperator.text.token, operand)],
          Constraint.isOperatorKey name = true := by
        simp [Constraint.isOperatorKey, ConstraintOperator.token]
      rw [entry_of_not_given hc hgiven htoken, Constraint.compile?_text hown]
      rfl
    · rename_i hnone
      have htext : Fields.contains operators ConstraintOperator.text.token = false := by
        rw [← Constraint.contains_found hinner howns .text rfl]
        exact Option.isSome_eq_false_iff.2 (Option.isNone_iff_eq_none.2 hnone)
      split
      · rename_i hin
        exact .negated htext (hnegated ▸ hin) hholds
      · rename_i hin
        exact .together htext (hnegated ▸ Bool.eq_false_iff.2 hin) hholds

/-! ## The entry in the query -/

/-- The query of a clause holds the entry of a field. -/
theorem holdsEntry {before after : Fields Rest} {query : Document} {depth : Nat} {value : Rest}
    (h : compileAt scope depth (before ++ (key, value) :: after) = .ok query) :
    ∃ own, entry scope (guardAt scope depth) key value = .ok own ∧
      HoldsEntry scope (guardAt scope depth) after query own := by
  obtain ⟨owns, howns, rfl⟩ := Outcome.map_eq_ok.1 h
  obtain ⟨first, own, second, rfl, hown, hsecond⟩ := entries_split howns
  refine ⟨own, hown, ?_⟩
  by_cases hnor : own.1 = norKey
  · obtain ⟨clauses, hclauses⟩ := entry_nor hown hnor
    obtain ⟨name, native⟩ := own
    cases hnor
    cases hclauses
    refine .negated (holdsClauses_merge first second fun later hl hname => ⟨rfl, ?_⟩)
    obtain ⟨other, _, hother⟩ := mem_entries hsecond hl
    exact entry_nor hother hname
  · refine .plain hnor fun hkept => get?_merge_last first second hnor fun later hl hname => hkept ?_
    obtain ⟨other, hmem, hother⟩ := mem_entries hsecond hl
    exact ⟨other, hmem, later, hother, hname⟩

/-- **The operators of a field stay together.** In every clause inside the where clause of a find,
the constraint of a field compiles to one entry with all its operators, or to its text search, and
the query of the clause holds this entry. -/
theorem operators_stay_together (hfind : scope.count = false) {members : Fields Rest}
    {query : Document} (h : document scope members = .ok query) {path : List String}
    {before after : Fields Rest}
    (hs : NestedClause members path (before ++ (key, .object operators) :: after))
    (hc : isCombinator key = false)
    (hkeys : ∀ name ∈ Fields.keys operators, Constraint.isOperatorKey name = true) :
    ∃ part own, Subquery query path part ∧
      compileAt scope path.length [(key, .object operators)] = .ok [own] ∧
      ConstraintEntry scope (guardAt scope path.length) key operators own ∧
      HoldsEntry scope (guardAt scope path.length) after part own := by
  obtain ⟨part, hsub, hpart⟩ := nestedClause_compiled h hs
  obtain ⟨own, hown, hheld⟩ := holdsEntry hpart
  exact ⟨part, own, hsub, compileAt_singleton.2 hown, constraint_entry hfind hc hkeys hown, hheld⟩

end

/-- More views than some, and fewer than others. -/
def viewsBetween : Fields Rest :=
  [("$gt", .number (.integer 9)), ("$lt", .number (.integer 99))]

/-- Posts that are new or have their share of views. -/
def viewedPosts : Fields Rest :=
  [("$or", .array [.object [("isNew", .bool true)],
    .object [("views", .object viewsBetween), ("isNew", .bool false)]])]

theorem operators_stay_together_views :
    ∃ query, document postScope viewedPosts = .ok query ∧
      (∀ name ∈ Fields.keys viewsBetween, Constraint.isOperatorKey name = true) ∧
      ∃ part own, Subquery query ["$or"] part ∧
        compileAt postScope 1 [("views", .object viewsBetween)] = .ok [own] ∧
        ConstraintEntry postScope (guardAt postScope 1) "views" viewsBetween own ∧
        HoldsEntry postScope (guardAt postScope 1) [("isNew", .bool false)] part own := by
  have hquery : document postScope viewedPosts = .ok [("$or", .array
      [.document [("isNew", .bool true)],
        .document [("views", .document [("$lt", .int32 99), ("$gt", .int32 9)]),
          ("isNew", .bool false)]])] := rfl
  have hkeys : ∀ name ∈ Fields.keys viewsBetween, Constraint.isOperatorKey name = true := by decide
  have hin : NestedClause viewedPosts ["$or"]
      ([] ++ ("views", .object viewsBetween) :: [("isNew", .bool false)]) :=
    .inside .whole (by decide) rfl List.mem_cons_self (List.mem_cons_of_mem _ List.mem_cons_self)
  exact ⟨_, hquery, hkeys, operators_stay_together rfl hquery hin rfl hkeys⟩

/-- A text search drops the operators beside it, a containment takes them into its negation, of two
distances one is held, and a later key with the same column takes the place of a constraint. -/
theorem operators_dropped_or_negated :
    (document postScope [("title", .object [("$text", .object [("$search",
        .object [("$term", .string "tea")])]), ("$regex", .string "^a")])] =
        .ok [("$text", .document [("$search", .string "tea")])] ∧
      Fields.get? [("$text", Native.document [("$search", .string "tea")])] "title" = none) ∧
    (document postScope
        [("tags", .object [("$containedBy", .array [.string "a"]), ("$exists", .bool true)])] =
        .ok [("$nor", .array [.document [("tags", .document [("$exists", .bool true),
          ("$elemMatch", .document [("$nin", .array [.string "a"])])])]])] ∧
      Fields.get? [("$nor", Native.array [.document [("tags", .document [("$exists", .bool true),
        ("$elemMatch", .document [("$nin", .array [.string "a"])])])]])] "tags" = none) ∧
    document postScope [("place", .object [("$maxDistance", .number (.integer 1)),
        ("$maxDistanceInRadians", .number (.integer 2))])] =
      .ok [("place", .document [("$maxDistance", .int32 1)])] ∧
    document postScope [("times_used", .object [("$gt", .number (.integer 1))]),
        ("timesUsed", .number (.integer 5))] = .ok [("times_used", .int32 5)] :=
  ⟨⟨rfl, rfl⟩, ⟨rfl, rfl⟩, rfl, rfl⟩

end RestStore.Where
