import RestStore.Constraint.Compile
import RestStore.Proofs.Fields
import RestStore.Proofs.Outcome

/-!
# Entries of a constraint

Every entry of a compiled constraint comes from one operator of the request, and most operators
write under their own token only: `entry_of_get?`.

* `name_entry?` — the names that an operator writes under.
* `mem_entries` — an entry has an operator.
* `compile?_alone` — a constraint with one operator compiles as the operator does.
* `all_operand`, `membership_operand`, `comparison_operand` — the operands on an array field are
  elements.
-/

set_option autoImplicit false

namespace RestStore

theorem ConstraintOperator.token_injective {first second : ConstraintOperator}
    (h : first.token = second.token) : first = second := by
  have hsame := congrArg ConstraintOperator.ofToken? h
  rw [ConstraintOperator.ofToken?_token, ConstraintOperator.ofToken?_token] at hsame
  exact Option.some.inj hsame

namespace Constraint

/-- The names that an operator writes under beside its own token. -/
def sharedNames : List String := ["$elemMatch", "$geoWithin", "$maxDistance"]

section

variable {scope : Scope} {members : Fields Rest} {operator : ConstraintOperator} {operand : Rest}

theorem own_eq_ok {compiled : Except Failure Native} {entry : String × Native}
    (h : own operator compiled = .ok (some entry)) :
    ∃ native, compiled = .ok native ∧ entry = (operator.token, native) := by
  obtain ⟨native, hn, he⟩ := Outcome.map_eq_ok.1 h
  exact ⟨native, hn, (Option.some.inj he).symm⟩

/-- An operator writes under its own token or under a shared name. -/
theorem name_entry? {entry : String × Native}
    (h : entry? scope members operator operand = .ok (some entry)) :
    entry.1 = operator.token ∨ entry.1 ∈ sharedNames := by
  have hown : ∀ {compiled : Except Failure Native}, own operator compiled = .ok (some entry) →
      entry.1 = operator.token ∨ entry.1 ∈ sharedNames := by
    intro compiled hc
    obtain ⟨native, _, rfl⟩ := own_eq_ok hc
    exact .inl rfl
  cases operator with
  | less | lessOrEqual | greater | greaterOrEqual | isPresent | notEqual | equal | isIn | notIn
  | all | options | text | within | geoWithin | geoIntersects => exact hown h
  | regex =>
    unfold entry? at h
    dsimp only at h
    split at h
    · cases h
      exact .inl rfl
    · cases h
  | containedBy =>
    obtain ⟨native, _, he⟩ := Outcome.map_eq_ok.1 h
    cases he
    exact .inr (show "$elemMatch" ∈ sharedNames by decide)
  | nearSphere =>
    obtain ⟨placed, hp, he⟩ := Outcome.map_eq_ok.1 h
    cases he
    unfold near at hp
    split at hp
    · cases hp
    · split at hp
      · obtain ⟨distance, _, rfl⟩ := Outcome.map_eq_ok.1 hp
        exact .inr (show "$geoWithin" ∈ sharedNames by decide)
      · cases hp
        exact .inl rfl
  | maxDistance | maxDistanceInRadians | maxDistanceInMiles | maxDistanceInKilometers =>
    unfold entry? at h
    dsimp only at h
    split at h
    · cases h
    · obtain ⟨distance, _, he⟩ := Outcome.map_eq_ok.1 h
      cases he
      exact .inr (show "$maxDistance" ∈ sharedNames by decide)
  | select | dontSelect => cases h

/-- Every entry comes from an operator of the request. -/
theorem mem_entries : ∀ {order : List ConstraintOperator} {answer : Document}
    {entry : String × Native}, entries scope members order = .ok answer → entry ∈ answer →
      ∃ operator operand, Fields.get? members operator.token = some operand ∧
        entry? scope members operator operand = .ok (some entry)
  | [], _, _, h, hm => by
    cases h
    cases hm
  | operator :: rest, answer, entry, h, hm => by
    unfold entries at h
    split at h
    · exact mem_entries h hm
    · rename_i operand hget
      split at h
      · cases h
      · rename_i own hown
        obtain ⟨later, hl, rfl⟩ := Outcome.map_eq_ok.1 h
        rcases List.mem_append.1 hm with hm | hm
        · rw [Option.mem_toList] at hm
          cases hm
          exact ⟨operator, operand, hget, hown⟩
        · exact mem_entries hl hm

/-- An object all of whose keys are operators is compiled as a constraint. -/
theorem compile?_object {result : Option Document}
    (hkeys : ∀ key ∈ Fields.keys members, isOperatorKey key = true)
    (h : compile? scope (.object members) = .ok result) :
    ∃ owns, entries scope members ConstraintOperator.order = .ok owns ∧
      result = some (Fields.ofList owns) := by
  have hall : (members.all fun member => isOperatorKey member.1) = true :=
    List.all_eq_true.2 fun member hm => hkeys member.1 (List.mem_map_of_mem hm)
  unfold compile? at h
  simp only [hall, Bool.not_true, Bool.false_eq_true, if_false] at h
  split at h
  · cases h
  · obtain ⟨owns, howns, rfl⟩ := Outcome.map_eq_ok.1 h
    exact ⟨owns, howns, rfl⟩

/-- A constraint is compiled when its keys are operators and these compile. -/
theorem compile?_eq_some {compiled : Document} :
    compile? scope (.object members) = .ok (some compiled) ↔
      (members.all fun member => isOperatorKey member.1) = true ∧ unknownKey? members = none ∧
        ∃ owns, entries scope members ConstraintOperator.order = .ok owns ∧
          compiled = Fields.ofList owns := by
  constructor
  · intro h
    unfold compile? at h
    dsimp only at h
    split at h
    · cases h
    · rename_i hall
      split at h
      · cases h
      · rename_i hknown
        obtain ⟨owns, howns, he⟩ := Outcome.map_eq_ok.1 h
        exact ⟨by simpa using hall, hknown, owns, howns, (Option.some.inj he).symm⟩
  · rintro ⟨hall, hknown, owns, howns, rfl⟩
    simp only [compile?, hall, hknown, howns, Bool.not_true, Bool.false_eq_true, if_false]
    rfl

/-- The entries for a single operator are what it gives where the order comes to it. -/
theorem entries_alone (scope : Scope) (operator : ConstraintOperator) (operand : Rest) :
    ∀ {order : List ConstraintOperator}, order.Nodup →
      entries scope [(operator.token, operand)] order =
        if operator ∈ order then
          ( entry? scope [(operator.token, operand)] operator operand).map Option.toList
        else .ok []
  | [], _ => rfl
  | first :: rest, hn => by
    obtain ⟨hfirst, hrest⟩ := List.nodup_cons.1 hn
    have later := entries_alone scope operator operand hrest
    by_cases he : operator = first
    · subst he
      have hget : Fields.get? [(operator.token, operand)] operator.token = some operand :=
        if_pos rfl
      rw [if_neg hfirst] at later
      simp only [entries, hget, later, List.mem_cons_self, if_true]
      cases entry? scope [(operator.token, operand)] operator operand with
      | error failure => rfl
      | ok own => exact congrArg Except.ok (List.append_nil _)
    · have hget : Fields.get? [(operator.token, operand)] first.token = none :=
        if_neg fun ht => he (ConstraintOperator.token_injective ht)
      simp only [entries, hget, later, List.mem_cons, he, false_or]

/-- **A constraint with one operator** compiles to what the operator gives. -/
theorem compile?_alone (scope : Scope) (operator : ConstraintOperator) (operand : Rest) :
    compile? scope (.object [(operator.token, operand)]) =
      ( entry? scope [(operator.token, operand)] operator operand).map fun own =>
        some own.toList := by
  have hkeys : isOperatorKey operator.token = true := by cases operator <;> rfl
  have hknown : unknownKey? [(operator.token, operand)] = none := by cases operator <;> rfl
  have hentries := entries_alone scope operator operand
    (show ConstraintOperator.order.Nodup by decide)
  rw [if_pos operator.mem_order] at hentries
  unfold compile?
  simp only [List.all_cons, List.all_nil, hkeys, hknown, hentries]
  cases entry? scope [(operator.token, operand)] operator operand with
  | error failure => rfl
  | ok own => cases own <;> rfl

/-- **What a constraint holds under the token of an operator** comes from that operator, unless
others write there, too. -/
theorem entry_of_get? {owns : Document} {native : Native}
    (h : entries scope members ConstraintOperator.order = .ok owns)
    (hn : operator.token ∉ sharedNames)
    (hget : Fields.get? (Fields.ofList owns) operator.token = some native) :
    ∃ operand, Fields.get? members operator.token = some operand ∧
      entry? scope members operator operand = .ok (some (operator.token, native)) := by
  rcases Fields.mem_insertAll (Fields.mem_of_get? hget) with hm | hm
  · cases hm
  · obtain ⟨other, operand, hoperand, he⟩ := mem_entries h hm
    rcases name_entry? he with hname | hname
    · cases ConstraintOperator.token_injective hname
      exact ⟨operand, hoperand, he⟩
    · exact absurd hname hn

/-! ## Operands on an array field -/

theorem atoms_eq_elements (ha : scope.fieldIs .array = true) (items : List Rest) :
    atoms scope items = Native.elements scope.guard items := by
  induction items with
  | nil => rfl
  | cons item rest ih =>
    have hatom : atom scope item = Native.element scope.guard item := by
      unfold atom
      rw [if_pos ha]
    cases he : Native.element scope.guard item with
    | error failure => simp only [atoms, Native.elements, hatom, he]
    | ok native => simp only [atoms, Native.elements, hatom, he, ih]

theorem all_operand {native : Native}
    (h : entry? scope members .all operand = .ok (some (ConstraintOperator.all.token, native))) :
    ∃ items natives, operand = .array items ∧ native = .array natives ∧
      Native.elements scope.guard items = .ok natives := by
  obtain ⟨_, hc, he⟩ := own_eq_ok h
  cases he
  unfold allOf at hc
  split at hc
  · rename_i items
    split at hc
    · cases hc
    · rename_i natives hn
      split at hc
      · cases hc
      · cases hc
        exact ⟨items, natives, rfl, rfl, hn⟩
  · cases hc

theorem membership_operand {native : Native} (ha : scope.fieldIs .array = true)
    (hop : operator = .isIn ∨ operator = .notIn)
    (h : entry? scope members operator operand = .ok (some (operator.token, native))) :
    ∃ items natives, operand = .array items ∧ native = .array natives ∧
      Native.elements scope.guard (spread items) = .ok natives := by
  have hown : own operator (membership scope operator operand) =
      .ok (some (operator.token, native)) := by
    rcases hop with rfl | rfl <;> exact h
  obtain ⟨_, hc, he⟩ := own_eq_ok hown
  cases he
  unfold membership at hc
  split at hc
  · rename_i items
    rw [atoms_eq_elements ha] at hc
    obtain ⟨natives, hn, rfl⟩ := Outcome.map_eq_ok.1 hc
    exact ⟨items, natives, rfl, rfl, hn⟩
  · cases hc

/-- An array field has no relative times. -/
theorem comparison_operand {native : Native} (ha : scope.fieldIs .array = true)
    (hop : operator = .equal ∨ operator = .notEqual)
    (h : entry? scope members operator operand = .ok (some (operator.token, native))) :
    Native.element scope.guard operand = .ok native := by
  have hown : own operator (comparison scope operator operand) =
      .ok (some (operator.token, native)) := by
    rcases hop with rfl | rfl <;> exact h
  obtain ⟨_, hc, he⟩ := own_eq_ok hown
  cases he
  have htime : operator.takesRelativeTime = false := by rcases hop with rfl | rfl <;> rfl
  unfold comparison at hc
  split at hc
  · unfold relativeTime at hc
    rw [htime] at hc
    split at hc
    · cases hc
    · cases hc
  · unfold atom at hc
    rwa [if_pos ha] at hc

/-! ## Text searches -/

/-- The names under which a text search is compiled. -/
def searchKeys : List String := ["$search", "$language", "$caseSensitive", "$diacriticSensitive"]

theorem keys_language {columns : Document} {search : Fields Rest}
    (h : language search = .ok columns) : ∀ key ∈ Fields.keys columns, key = "$language" := by
  unfold language at h
  split at h <;> cases h <;> simp

theorem keys_searchFlag {name : String} {columns : Document} {search : Fields Rest}
    (h : searchFlag search name = .ok columns) : ∀ key ∈ Fields.keys columns, key = name := by
  unfold searchFlag at h
  split at h <;> cases h <;> simp

theorem keys_textSearch {columns : Document} (h : textSearch operand = .ok columns) :
    ∀ key ∈ Fields.keys columns, key ∈ searchKeys := by
  unfold textSearch at h
  split at h
  · obtain ⟨term, _, h⟩ := Outcome.bind_eq_ok.1 h
    obtain ⟨languages, hl, h⟩ := Outcome.bind_eq_ok.1 h
    obtain ⟨casing, hc, h⟩ := Outcome.bind_eq_ok.1 h
    obtain ⟨diacritics, hd, h⟩ := Outcome.bind_eq_ok.1 h
    cases h
    intro key hk
    rw [Fields.keys_cons, Fields.keys_append, Fields.keys_append, List.mem_cons, List.mem_append,
      List.mem_append] at hk
    rcases hk with rfl | (hk | hk) | hk
    · decide
    · rw [keys_language hl key hk]
      decide
    · rw [keys_searchFlag hc key hk]
      decide
    · rw [keys_searchFlag hd key hk]
      decide
  · cases h

end

end Constraint

end RestStore
