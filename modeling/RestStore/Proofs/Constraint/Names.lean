import RestStore.Proofs.Constraint.Entries

/-!
# Names of the entries of a constraint

Compiled for a query that finds, every operator of a constraint gives one entry, and all but the
distances have a name of their own: `name_found`, `nodup_foundNames`. So the document of a
constraint holds what each operator compiles to, and of several distances the last one:
`holdsOperators`. A search is compiled as it is alone: `compile?_text`.
-/

set_option autoImplicit false

namespace RestStore

namespace ConstraintOperator

/-- Whether the operator is a distance. -/
def isDistance (operator : ConstraintOperator) : Bool := operator.unitsPerRadian?.isSome

/-- The name under which an operator is compiled for a query that finds. -/
def foundName : ConstraintOperator → String
  | containedBy => "$elemMatch"
  | maxDistance | maxDistanceInRadians | maxDistanceInMiles | maxDistanceInKilometers =>
    maxDistance.token
  | operator => operator.token

theorem foundName_of_isDistance {operator : ConstraintOperator} (h : operator.isDistance = true) :
    operator.foundName = maxDistance.token := by
  cases operator <;> first | rfl | cases h

/-- The distances share a name, and no other operators do. -/
theorem nodup_foundNames :
    ((order.map foundName).filter fun name => name != maxDistance.token).Nodup := by
  decide

/-- A name other than that of the distances determines its operator. -/
theorem eq_of_foundName {operator other : ConstraintOperator} (hd : operator.isDistance = false)
    (h : other.foundName = operator.foundName) : other = operator := by
  have hall : ∀ operator ∈ order, operator.isDistance = false → ∀ other ∈ order,
      other.foundName = operator.foundName → other = operator := by decide
  exact hall operator operator.mem_order hd other other.mem_order h

end ConstraintOperator

namespace Constraint

/-- A document holds what each operator of a constraint compiles to, unless a later operator is
compiled under the same name. -/
def HoldsOperators (scope : Scope) (members : Fields Rest) (compiled : Document) : Prop :=
  ∀ before operator after operand, ConstraintOperator.order = before ++ operator :: after →
    Fields.get? members operator.token = some operand → ∃ native,
      entry? scope members operator operand = .ok (some (operator.foundName, native)) ∧
        ((∀ other ∈ after, Fields.contains members other.token = true →
            other.foundName ≠ operator.foundName) →
          Fields.get? compiled operator.foundName = some native)

section

variable {scope : Scope} {members : Fields Rest}

/-- **Every operator gives one entry** to a query that finds. -/
theorem name_found {operator : ConstraintOperator} {operand : Rest}
    {own : Option (String × Native)} (hfind : scope.count = false)
    (h : entry? scope members operator operand = .ok own) :
    ∃ native, own = some (operator.foundName, native) := by
  cases operator with
  | less | lessOrEqual | greater | greaterOrEqual | isPresent | notEqual | equal | isIn | notIn
  | all | options | text | within | geoWithin | geoIntersects | containedBy =>
    obtain ⟨native, _, rfl⟩ := Outcome.map_eq_ok.1 h
    exact ⟨native, rfl⟩
  | regex =>
    unfold entry? at h
    dsimp only at h
    split at h
    · cases h
      exact ⟨_, rfl⟩
    · cases h
  | nearSphere =>
    obtain ⟨placed, hp, rfl⟩ := Outcome.map_eq_ok.1 h
    unfold near at hp
    rw [hfind] at hp
    split at hp
    · cases hp
    · cases hp
      exact ⟨_, rfl⟩
  | maxDistance | maxDistanceInRadians | maxDistanceInMiles | maxDistanceInKilometers =>
    unfold entry? at h
    rw [hfind] at h
    obtain ⟨distance, _, rfl⟩ := Outcome.map_eq_ok.1 h
    exact ⟨distance, rfl⟩
  | select | dontSelect => cases h

/-- The entries of two runs of operators stand one after the other. -/
theorem entries_append : ∀ {before after : List ConstraintOperator} {owns : Document},
    entries scope members (before ++ after) = .ok owns →
      ∃ first second, entries scope members before = .ok first ∧
        entries scope members after = .ok second ∧ owns = first ++ second
  | [], _, owns, h => ⟨[], owns, rfl, h, rfl⟩
  | operator :: before, after, owns, h => by
    rw [List.cons_append] at h
    unfold entries at h
    split at h
    · rename_i hget
      obtain ⟨first, second, hf, hs, rfl⟩ := entries_append h
      exact ⟨first, second, by simp only [entries, hget, hf], hs, rfl⟩
    · rename_i operand hget
      split at h
      · cases h
      · rename_i own hown
        obtain ⟨later, hl, rfl⟩ := Outcome.map_eq_ok.1 h
        obtain ⟨first, second, hf, hs, rfl⟩ := entries_append hl
        refine ⟨own.toList ++ first, second, ?_, hs, by rw [List.append_assoc]⟩
        simp only [entries, hget, hown, hf]
        rfl

/-- The names of the entries are those of the operators, in their order. -/
theorem keys_entries (hfind : scope.count = false) : ∀ {order : List ConstraintOperator}
    {owns : Document}, entries scope members order = .ok owns →
      Fields.keys owns =
        (order.filter fun operator => Fields.contains members operator.token).map
          ConstraintOperator.foundName
  | [], _, h => by
    cases h
    rfl
  | operator :: rest, owns, h => by
    unfold entries at h
    rw [List.filter_cons, Fields.contains]
    split at h
    · rename_i hget
      rw [hget]
      exact keys_entries hfind h
    · rename_i operand hget
      rw [hget]
      split at h
      · cases h
      · rename_i own hown
        obtain ⟨later, hl, rfl⟩ := Outcome.map_eq_ok.1 h
        obtain ⟨native, rfl⟩ := name_found hfind hown
        exact congrArg (operator.foundName :: ·) (keys_entries hfind hl)

/-- The document of a constraint has the names of its operators. -/
theorem mem_keys_found (hfind : scope.count = false) {owns : Document}
    (h : entries scope members ConstraintOperator.order = .ok owns) {name : String} :
    name ∈ Fields.keys (Fields.ofList owns) ↔
      ∃ operator : ConstraintOperator,
        Fields.contains members operator.token = true ∧ operator.foundName = name := by
  rw [Fields.mem_keys_ofList, keys_entries hfind h, List.mem_map]
  constructor
  · rintro ⟨operator, hm, hname⟩
    exact ⟨operator, (List.mem_filter.1 hm).2, hname⟩
  · rintro ⟨operator, hin, hname⟩
    exact ⟨operator, List.mem_filter.2 ⟨operator.mem_order, hin⟩, hname⟩

/-- An operator other than a distance is found under its name just when it is given. -/
theorem contains_found (hfind : scope.count = false) {owns : Document}
    (h : entries scope members ConstraintOperator.order = .ok owns)
    (operator : ConstraintOperator) (hd : operator.isDistance = false) :
    Fields.contains (Fields.ofList owns) operator.foundName =
      Fields.contains members operator.token := by
  rw [Bool.eq_iff_iff, ← not_iff_not, Bool.not_eq_true, Fields.contains_eq_false_iff,
    mem_keys_found hfind h, not_exists]
  constructor
  · intro hno hin
    exact hno operator ⟨hin, rfl⟩
  · rintro hno other ⟨hin, hname⟩
    rw [ConstraintOperator.eq_of_foundName hd hname] at hin
    exact hno hin

/-- Names other than that of the distances stand once. -/
theorem nodup_entries (hfind : scope.count = false) {owns : Document}
    (h : entries scope members ConstraintOperator.order = .ok owns) :
    (Fields.keys (owns.filter fun entry =>
      entry.1 != ConstraintOperator.maxDistance.token)).Nodup := by
  have hkeys : Fields.keys (owns.filter fun entry =>
      entry.1 != ConstraintOperator.maxDistance.token) =
        (Fields.keys owns).filter fun name => name != ConstraintOperator.maxDistance.token := by
    unfold Fields.keys
    rw [List.filter_map]
    rfl
  rw [hkeys, keys_entries hfind h]
  have hsub : ((ConstraintOperator.order.filter fun operator =>
      Fields.contains members operator.token).map ConstraintOperator.foundName).Sublist
        (ConstraintOperator.order.map ConstraintOperator.foundName) :=
    List.filter_sublist.map _
  exact (hsub.filter _).nodup ConstraintOperator.nodup_foundNames

/-- **The document of a constraint holds its operators.** -/
theorem holdsOperators (hfind : scope.count = false) {owns : Document}
    (h : entries scope members ConstraintOperator.order = .ok owns) :
    HoldsOperators scope members (Fields.ofList owns) := by
  intro before operator after operand horder hget
  rw [horder] at h
  obtain ⟨first, rest, _, hrest, rfl⟩ := entries_append h
  unfold entries at hrest
  rw [hget] at hrest
  dsimp only at hrest
  split at hrest
  · cases hrest
  · rename_i own hown
    obtain ⟨second, hs, rfl⟩ := Outcome.map_eq_ok.1 hrest
    obtain ⟨native, rfl⟩ := name_found hfind hown
    refine ⟨native, hown, fun hlast => Fields.get?_insertAll_last [] first second ?_⟩
    rw [keys_entries hfind hs]
    intro hm
    obtain ⟨other, ho, hname⟩ := List.mem_map.1 hm
    obtain ⟨hafter, hin⟩ := List.mem_filter.1 ho
    exact hlast other hafter hin hname

/-- A search among other operators is compiled as it is alone. -/
theorem compile?_text {operand : Rest} {search : Native}
    (h : entry? scope members .text operand =
      .ok (some (ConstraintOperator.text.token, search))) :
    compile? scope (.object [(ConstraintOperator.text.token, operand)]) =
      .ok (some [(ConstraintOperator.text.token, search)]) := by
  have hown : entry? scope [(ConstraintOperator.text.token, operand)] .text operand =
      .ok (some (ConstraintOperator.text.token, search)) := h
  rw [compile?_alone, hown]
  rfl

end

end Constraint

end RestStore
