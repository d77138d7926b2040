import Mathlib.Data.List.Induction
import RestStore.Proofs.Constraint.Order
import RestStore.Proofs.Where.Conjunction

/-!
# Negated clauses

Two kinds of keys put clauses under `$nor`: an explicit `$nor` its subclauses, and a field with a
`$containedBy` its constraint. The query of a clause holds all of them there, in the order of the
keys, and it holds nothing else there.

* `Negates` — the clauses that a key puts under `$nor`.
* `name_eq_norKey_iff` — a key is compiled to an entry under `$nor` just when it negates something.
* `HoldsNegations` — what a query holds under `$nor`: `HoldsNegations.write` for one more entry,
  `holdsNegations_merge` for all entries of a clause.
* `negations_survive` — a where clause and every clause inside it.
-/

set_option autoImplicit false

namespace RestStore.Where

/-! ## One key -/

/-- A subclause with its query. -/
def CompiledClause (scope : Scope) (depth : Nat) (clause : Rest) (native : Native) : Prop :=
  ∃ inner part, clause = .object inner ∧ native = .document part ∧
    compileAt scope depth inner = .ok part

/-- The clauses that a key puts under `$nor`. -/
inductive Negates (scope : Scope) (depth : Nat) : String × Rest → List Native → Prop
  /-- The subclauses of an explicit `$nor`, each compiled one level down. -/
  | clauses {clauses : List Rest} {natives : List Native} :
    List.Forall₂ (CompiledClause scope (depth + 1)) clauses natives →
      Negates scope depth (norKey, .array clauses) natives
  /-- The constraint of a field with a `$containedBy`, under the column of the field. -/
  | contained {key : String} {operators : Fields Rest} {compiled : Document} :
    isCombinator key = false → ¬IsGiven key →
      Constraint.compile? (constraintScope scope (guardAt scope depth) key) (.object operators) =
          .ok (some compiled) →
        Fields.contains operators ConstraintOperator.containedBy.token = true →
          Fields.contains operators ConstraintOperator.text.token = false →
            Negates scope depth (key, .object operators)
              [.document [(column scope.target.schema key, .document compiled)]]

section

variable {scope : Scope} {depth : Nat}

/-- The subclauses of a combinator are compiled in order. -/
theorem compiledClauses {key : String} : ∀ {clauses : List Rest} {natives : List Native},
    subclauses scope (guardAt scope depth) key clauses = .ok natives →
      List.Forall₂ (CompiledClause scope (depth + 1)) clauses natives
  | [], _, h => by
    rw [subclauses] at h
    cases h
    exact .nil
  | clause :: rest, _, h => by
    rw [subclauses] at h
    split at h
    · cases h
    · rename_i native hn
      obtain ⟨later, hl, rfl⟩ := Outcome.map_eq_ok.1 h
      refine .cons ?_ (compiledClauses hl)
      cases clause with
      | object inner =>
        obtain ⟨part, rfl, hpart⟩ := subclause_object hn
        exact ⟨inner, part, rfl, rfl, hpart⟩
      | null | bool _ | number _ | string _ | array _ =>
        simp [subclause] at hn

/-- The names of a compiled constraint decide whether it is negated. -/
theorem constraintEntry_eq_nor_iff {scope : Constraint.Scope} {operators : Fields Rest}
    {compiled : Document} {column : String} (hne : column ≠ norKey)
    (h : Constraint.compile? scope (.object operators) = .ok (some compiled)) :
    (constraintEntry column compiled).1 = norKey ↔
      Fields.contains operators ConstraintOperator.containedBy.token = true ∧
        Fields.contains operators ConstraintOperator.text.token = false := by
  rw [← Constraint.contains_compiled (ConstraintOperator.compiledName?_eq_elemMatch _) h,
    ← Constraint.contains_compiled (ConstraintOperator.compiledName?_eq_text _) h]
  unfold constraintEntry
  split
  · rename_i hsearch
    simp [Fields.contains, hsearch, norKey]
  · rename_i hnone
    split
    · rename_i hin
      exact iff_of_true rfl ⟨hin, by rw [Fields.contains, hnone]; rfl⟩
    · rename_i hin
      simp [hin, hne]

theorem fieldEntry_of_not_given {guard : Nesting} {key : String} (value : Rest)
    (hgiven : ¬IsGiven key) :
    fieldEntry scope guard key value = plainEntry scope guard key value := by
  obtain ⟨hid, hverbatim⟩ := not_isGiven.1 hgiven
  rw [fieldEntry, if_neg hid, hverbatim]

theorem column_of_not_given {key : String} (schema : Schema) (hc : isCombinator key = false)
    (hgiven : ¬IsGiven key) : column schema key = Column.forQuery schema key := by
  obtain ⟨hid, hverbatim⟩ := not_isGiven.1 hgiven
  rw [column, if_neg (by simp [hc]), if_neg hid, hverbatim]
  rfl

/-- A value that is matched as given is not negated. -/
theorem ne_norKey_of_given {guard : Nesting} {key : String} {value : Rest} {own : String × Native}
    (hc : isCombinator key = false) (hgiven : IsGiven key)
    (h : fieldEntry scope guard key value = .ok own) : own.1 ≠ norKey := by
  have hname : own.1 = column scope.target.schema key := by
    unfold fieldEntry at h
    rw [column, if_neg (by simp [hc])]
    by_cases hid : key = objectIdKey
    · rw [if_pos hid] at h ⊢
      obtain ⟨_, _, rfl⟩ := Outcome.map_eq_ok.1 h
      rfl
    · obtain ⟨name, hname⟩ := Option.isSome_iff_exists.1 (hgiven.resolve_left hid)
      rw [if_neg hid, hname] at h ⊢
      obtain ⟨_, _, rfl⟩ := Outcome.map_eq_ok.1 h
      rfl
  rw [hname]
  exact column_ne_norKey _ hc

/-- A field negates something just where it has a containment and no text search. -/
theorem negates_field_iff {key : String} {value : Rest} {natives : List Native}
    (hc : isCombinator key = false) :
    Negates scope depth (key, value) natives ↔
      ∃ operators compiled, value = .object operators ∧ ¬IsGiven key ∧
        Constraint.compile? (constraintScope scope (guardAt scope depth) key) (.object operators) =
          .ok (some compiled) ∧
        (constraintEntry (column scope.target.schema key) compiled).1 = norKey ∧
        natives = [.document [(column scope.target.schema key, .document compiled)]] := by
  have hne := column_ne_norKey scope.target.schema hc
  constructor
  · intro h
    cases h with
    | clauses _ => exact absurd hc (by decide)
    | contained _ hgiven hcompiled hin hout =>
      exact ⟨_, _, rfl, hgiven, hcompiled,
        (constraintEntry_eq_nor_iff hne hcompiled).2 ⟨hin, hout⟩, rfl⟩
  · rintro ⟨operators, compiled, rfl, hgiven, hcompiled, hnor, rfl⟩
    obtain ⟨hin, hout⟩ := (constraintEntry_eq_nor_iff hne hcompiled).1 hnor
    exact .contained hc hgiven hcompiled hin hout

theorem constraintEntry_of_nor {column : String} {compiled : Document} (hne : column ≠ norKey)
    (h : (constraintEntry column compiled).1 = norKey) :
    (constraintEntry column compiled).2 = .array [.document [(column, .document compiled)]] := by
  unfold constraintEntry at h ⊢
  split at h
  · dsimp only at h
    exact absurd h (by decide)
  · split at h
    · rename_i hin
      rw [if_pos hin]
    · exact absurd h hne

/-- The entry of a field stands under `$nor` just where the field negates something. -/
theorem name_plainEntry_eq_norKey_iff {key : String} {value : Rest} {own : String × Native}
    (hc : isCombinator key = false) (hgiven : ¬IsGiven key)
    (h : plainEntry scope (guardAt scope depth) key value = .ok own) :
    own.1 = norKey ↔ ∃ natives, own.2 = .array natives ∧
      Negates scope depth (key, value) natives := by
  have hne := column_ne_norKey scope.target.schema hc
  have hcolumn := column_of_not_given scope.target.schema hc hgiven
  simp only [negates_field_iff hc]
  unfold plainEntry at h
  dsimp only at h
  rw [← hcolumn] at h
  split at h
  · rename_i htime
    cases h
    refine iff_of_false hne ?_
    rintro ⟨_, _, operators, _, rfl, _⟩
    cases htime
  · split at h
    · cases h
    · rename_i compiled hcompiled
      cases h
      constructor
      · intro hnor
        cases value with
        | object operators =>
          exact ⟨_, constraintEntry_of_nor hne hnor, operators, compiled, rfl, hgiven, hcompiled,
            hnor, rfl⟩
        | null | bool _ | number _ | string _ | array _ => cases hcompiled
      · rintro ⟨_, _, operators, other, rfl, _, hother, hnor, _⟩
        cases hcompiled.symm.trans hother
        exact hnor
    · rename_i hnone
      refine iff_of_false ?_ ?_
      · rw [name_valueEntry h, ← hcolumn]
        exact hne
      · rintro ⟨_, _, operators, _, rfl, _, hother, _⟩
        cases hnone.symm.trans hother

/-- **A key is compiled to an entry under `$nor` just where it negates something**, and the entry is
the list of what it negates. -/
theorem name_eq_norKey_iff {key : String} {value : Rest} {own : String × Native}
    (h : entry scope (guardAt scope depth) key value = .ok own) :
    own.1 = norKey ↔ ∃ natives, own.2 = .array natives ∧
      Negates scope depth (key, value) natives := by
  cases hc : isCombinator key with
  | true =>
    cases value with
    | array clauses =>
      rw [entry, if_pos hc] at h
      obtain ⟨natives, hnatives, rfl⟩ := Outcome.map_eq_ok.1 h
      constructor
      · rintro rfl
        exact ⟨natives, rfl, .clauses (compiledClauses hnatives)⟩
      · rintro ⟨_, _, hn⟩
        cases hn
        rfl
    | null | bool _ | number _ | string _ | object _ =>
      rw [entry, if_pos hc] at h
      · cases h
      · simp
  | false =>
    rw [entry_of_field hc] at h
    by_cases hgiven : IsGiven key
    · refine iff_of_false (ne_norKey_of_given hc hgiven h) ?_
      rintro ⟨_, _, hn⟩
      obtain ⟨_, _, _, hno, _⟩ := (negates_field_iff hc).1 hn
      exact hno hgiven
    · rw [fieldEntry_of_not_given value hgiven] at h
      exact name_plainEntry_eq_norKey_iff hc hgiven h

/-! ## All keys -/

/-- The clauses that entries put under `$nor`, in order. -/
def negations (owns : List (String × Native)) : List Native :=
  owns.flatMap fun own =>
    match own.2 with
    | .array clauses => if own.1 = norKey then clauses else []
    | _ => []

/-- What a query of entries holds under `$nor`: the clauses of all entries there, in order, and
nothing without such an entry. -/
def HoldsNegations (owns : List (String × Native)) (query : Document) : Prop :=
  Fields.get? query norKey =
    if norKey ∈ Fields.keys owns then some (.array (negations owns)) else none

theorem negations_append (first second : List (String × Native)) :
    negations (first ++ second) = negations first ++ negations second :=
  List.flatMap_append

theorem negations_eq_nil {owns : List (String × Native)} (h : norKey ∉ Fields.keys owns) :
    negations owns = [] := by
  refine List.flatMap_eq_nil_iff.2 fun own hm => ?_
  have hne : own.1 ≠ norKey := fun he => h (he ▸ List.mem_map_of_mem hm)
  split
  · exact if_neg hne
  · rfl

/-- **One more entry** joins the others under `$nor`, or leaves them as they are. -/
theorem HoldsNegations.write {owns : List (String × Native)} {query : Document}
    {own : String × Native} (h : HoldsNegations owns query)
    (hl : own.1 = norKey → ∃ clauses, own.2 = .array clauses) :
    HoldsNegations (owns ++ [own]) (write query own) := by
  unfold HoldsNegations at h ⊢
  rw [negations_append, Fields.keys_append]
  by_cases hn : own.1 = norKey
  · obtain ⟨clauses, hclauses⟩ := hl hn
    have hown : negations [own] = clauses := by
      simp [negations, hclauses, hn]
    rw [hown, if_pos (List.mem_append_right _ (by simp [Fields.keys, hn]))]
    by_cases hin : norKey ∈ Fields.keys owns
    · rw [if_pos hin] at h
      obtain ⟨earlier, hget, hheld⟩ := get?_write_nor query hn hclauses
      rw [hget, hheld _ h]
    · -- nothing stands under `$nor` yet, so the entry is inserted as it is
      rw [if_neg hin] at h
      rw [negations_eq_nil hin, Where.write, h]
      dsimp only
      rw [hn, hclauses, Fields.get?_insert_self]
      rfl
  · have hown : norKey ∉ Fields.keys [own] := by
      simpa [Fields.keys] using Ne.symm hn
    rw [get?_write_of_ne query hn, h, negations_eq_nil hown, List.append_nil]
    simp [hown]

/-- **The query of entries holds what all of them negate.** -/
theorem holdsNegations_merge {owns : List (String × Native)}
    (hl : ∀ own ∈ owns, own.1 = norKey → ∃ clauses, own.2 = .array clauses) :
    HoldsNegations owns (merge owns) := by
  induction owns using List.reverseRecOn with
  | nil => rfl
  | append_singleton owns own ih =>
    rw [merge, List.foldl_append]
    refine (ih fun other hm => hl other (List.mem_append_left _ hm)).write ?_
    exact hl own (List.mem_append_right _ (List.mem_singleton_self own))

/-- What a key is compiled to when it is the only one. -/
structure CompiledAlone (scope : Scope) (depth : Nat) (member : String × Rest)
    (own : String × Native) : Prop where
  compiled : compileAt scope depth [member] = .ok [own]
  negated : own.1 = norKey ↔ ∃ natives, own.2 = .array natives ∧
    Negates scope depth member natives

/-- Each key of a clause has the entry that it is compiled to alone. -/
theorem compiledAlone_entries : ∀ {clause : Fields Rest} {owns : List (String × Native)},
    entries scope (guardAt scope depth) clause = .ok owns →
      List.Forall₂ (CompiledAlone scope depth) clause owns
  | [], _, h => by
    rw [entries] at h
    cases h
    exact .nil
  | (key, value) :: rest, _, h => by
    obtain ⟨own, later, rfl, hown, hlater⟩ := entries_cons h
    exact .cons ⟨compileAt_singleton.2 hown, name_eq_norKey_iff hown⟩
      (compiledAlone_entries hlater)

/-- A clause holds what its keys negate. -/
theorem compileAt_holdsNegations {clause : Fields Rest} {query : Document}
    (h : compileAt scope depth clause = .ok query) :
    ∃ owns, List.Forall₂ (CompiledAlone scope depth) clause owns ∧ HoldsNegations owns query := by
  obtain ⟨owns, howns, rfl⟩ := Outcome.map_eq_ok.1 h
  refine ⟨owns, compiledAlone_entries howns, holdsNegations_merge fun own hm hn => ?_⟩
  obtain ⟨member, _, hown⟩ := mem_entries howns hm
  exact entry_nor hown hn

/-- **Every negated clause survives in `$nor`.** In a where clause and in every clause inside it,
each key compiles alone to one entry; the query of the clause has a `$nor` just where some of these
entries stand under `$nor`, and holds there the lists of all of them in the order of the keys. Such
an entry is that of an explicit `$nor`, with all its subclauses, or of a field with a
`$containedBy`. -/
theorem negations_survive {members : Fields Rest} {query : Document}
    (h : document scope members = .ok query) {path : List String} {clause : Fields Rest}
    (hs : NestedClause members path clause) :
    ∃ part owns, Subquery query path part ∧ compileAt scope path.length clause = .ok part ∧
      List.Forall₂ (CompiledAlone scope path.length) clause owns ∧ HoldsNegations owns part := by
  obtain ⟨part, hsub, hpart⟩ := nestedClause_compiled h hs
  obtain ⟨owns, howns, hholds⟩ := compileAt_holdsNegations hpart
  exact ⟨part, owns, hsub, hpart, howns, hholds⟩

end

/-- Posts that have no tags and no labels but the common ones, and are no drafts. -/
def commonPosts : Fields Rest :=
  [("tags", .object [("$containedBy", .array [.string "news"])]),
    (norKey, .array [.object [("isDraft", .bool true)]]),
    ("labels", .object [("$containedBy", .array [.string "public"])])]

/-- New posts, and common ones. -/
def newOrCommonPosts : Fields Rest :=
  [("$or", .array [.object [("isNew", .bool true)], .object commonPosts])]

theorem negations_survive_posts :
    ∃ query, document postScope newOrCommonPosts = .ok query ∧
      NestedClause newOrCommonPosts ["$or"] commonPosts ∧
      ∃ part owns, Subquery query ["$or"] part ∧ compileAt postScope 1 commonPosts = .ok part ∧
        List.Forall₂ (CompiledAlone postScope 1) commonPosts owns ∧ HoldsNegations owns part := by
  have hquery : document postScope newOrCommonPosts =
      .ok [("$or", .array [.document [("isNew", .bool true)], .document [("$nor", .array
        [.document [("tags", .document [("$elemMatch",
            .document [("$nin", .array [.string "news"])])])],
          .document [("isDraft", .bool true)],
          .document [("labels", .document [("$elemMatch",
            .document [("$nin", .array [.string "public"])])])]])]])] := rfl
  have hin : NestedClause newOrCommonPosts ["$or"] commonPosts :=
    .inside .whole (by decide) rfl List.mem_cons_self (List.mem_cons_of_mem _ List.mem_cons_self)
  exact ⟨_, hquery, hin, negations_survive hquery hin⟩

end RestStore.Where
