import RestStore.Proofs.Constraint.Sphere

/-!
# The order of the keys of a constraint

The operators of a constraint are compiled in an order of their own, and they see each other only
through the names of the request. So the order of its keys has no influence, apart from which of
several unknown keys is reported.

* `entries_congr` — the entries of a constraint depend on what it holds under each name.
* `name_compiled`, `mem_keys_compiled` — the name of each entry, and all names of the document;
  `contains_compiled` for a name that belongs to one operator.
* `get?_compiled` — what the document holds under the name of an operator.
* `reordered_compiles_alike` — the same outcome for every order of the keys, and a document that
  accounts for every operator.
-/

set_option autoImplicit false

namespace RestStore

namespace ConstraintOperator

/-- The name under which an operator is compiled; the distances of a count have none. -/
def compiledName? (count : Bool) : ConstraintOperator → Option String
  | containedBy => some "$elemMatch"
  | nearSphere => some (if count then geoWithin.token else nearSphere.token)
  | maxDistance | maxDistanceInRadians | maxDistanceInMiles | maxDistanceInKilometers =>
    if count then none else some maxDistance.token
  | operator => some operator.token

theorem compiledName?_found (operator : ConstraintOperator) :
    operator.compiledName? false = some operator.foundName := by
  cases operator <;> rfl

theorem compiledName?_counted {operator : ConstraintOperator} (hp : operator ≠ .nearSphere)
    (hd : operator.isDistance = false) : operator.compiledName? true = some operator.foundName := by
  cases operator <;> first | rfl | exact absurd rfl hp | cases hd

theorem compiledName?_distance {operator : ConstraintOperator} (hd : operator.isDistance = true) :
    operator.compiledName? true = none := by
  cases operator <;> first | rfl | cases hd

/-- Only a containment is compiled to a condition on elements. -/
theorem compiledName?_eq_elemMatch (count : Bool) (operator : ConstraintOperator) :
    operator.compiledName? count = some "$elemMatch" ↔ operator = containedBy := by
  cases count <;> cases operator <;> decide

/-- Only a text search is compiled to one. -/
theorem compiledName?_eq_text (count : Bool) (operator : ConstraintOperator) :
    operator.compiledName? count = some "$text" ↔ operator = text := by
  cases count <;> cases operator <;> decide

/-- The operators that are compiled after an operator. -/
def later (operator : ConstraintOperator) : List ConstraintOperator :=
  (order.dropWhile (· ≠ operator)).tail

theorem order_split (operator : ConstraintOperator) :
    ∃ before, order = before ++ operator :: operator.later :=
  ⟨order.takeWhile (· ≠ operator), by cases operator <;> rfl⟩

end ConstraintOperator

namespace Constraint

section

variable {scope : Scope} {first second : Fields Rest}

/-! ## What a constraint is read for -/

theorem firstDistance_congr (h : ∀ key, Fields.get? first key = Fields.get? second key)
    (order : List ConstraintOperator) : firstDistance first order = firstDistance second order := by
  have hsame : distance? first = distance? second := by
    funext operator
    unfold distance?
    rw [h]
  rw [firstDistance_eq, firstDistance_eq, hsame]

/-- Of the other operators, only the point of a count looks at one: at its distance. -/
theorem entry_congr (h : ∀ key, Fields.get? first key = Fields.get? second key)
    (operator : ConstraintOperator) (operand : Rest) :
    entry? scope first operator operand = entry? scope second operator operand := by
  cases operator with
  | nearSphere =>
    unfold entry?
    simp only [near, firstDistance_congr h]
  | less | lessOrEqual | greater | greaterOrEqual | isPresent | notEqual | equal | isIn | notIn
  | all | regex | options | text | within | geoWithin | geoIntersects | containedBy | maxDistance
  | maxDistanceInRadians | maxDistanceInMiles | maxDistanceInKilometers | select | dontSelect => rfl

/-- **The entries of a constraint** depend on what it holds under each name. -/
theorem entries_congr (h : ∀ key, Fields.get? first key = Fields.get? second key)
    (order : List ConstraintOperator) : entries scope first order = entries scope second order := by
  induction order with
  | nil => rfl
  | cons operator rest ih => simp only [entries, h, entry_congr h, ih]

end

/-! ## Unknown keys -/

/-- The keys of a constraint that are no operators. -/
def unknownKeys (members : Fields Rest) : List String :=
  (Fields.keys members).filter fun key => (ConstraintOperator.ofToken? key).isNone

theorem unknownKey?_eq_head? (members : Fields Rest) :
    unknownKey? members = (unknownKeys members).head? := by
  unfold unknownKey? unknownKeys
  rw [List.head?_filter]

theorem unknownKey?_perm {first second : Fields Rest} (h : first.Perm second)
    (hone : (unknownKeys second).length ≤ 1) : unknownKey? first = unknownKey? second := by
  have hkeys : (unknownKeys first).Perm (unknownKeys second) := (h.map Prod.fst).filter _
  rw [unknownKey?_eq_head?, unknownKey?_eq_head?]
  cases hs : unknownKeys second with
  | nil =>
    rw [hs] at hkeys
    rw [List.perm_nil.1 hkeys]
  | cons key rest =>
    rw [hs] at hone hkeys
    have hrest : rest = [] := List.length_eq_zero_iff.1 (by simpa using hone)
    rw [hrest] at hkeys ⊢
    rw [List.perm_singleton.1 hkeys]

/-- Some key is unknown in one order just when one is in another. -/
theorem unknownKey?_eq_none_perm {first second : Fields Rest} (h : first.Perm second) :
    unknownKey? first = none ↔ unknownKey? second = none := by
  have hkeys : (unknownKeys first).Perm (unknownKeys second) := (h.map Prod.fst).filter _
  rw [unknownKey?_eq_head?, unknownKey?_eq_head?, List.head?_eq_none_iff, List.head?_eq_none_iff]
  exact ⟨fun hf => List.nil_perm.1 (hf ▸ hkeys), fun hs => List.perm_nil.1 (hs ▸ hkeys)⟩

theorem exists_token_of_known {members : Fields Rest} (h : unknownKey? members = none)
    {key : String} (hk : key ∈ Fields.keys members) :
    ∃ operator : ConstraintOperator, operator.token = key := by
  cases ho : ConstraintOperator.ofToken? key with
  | none => exact absurd (by rw [ho]; rfl) (List.find?_eq_none.1 h key hk)
  | some operator =>
    unfold ConstraintOperator.ofToken? at ho
    exact ⟨operator, by simpa using List.find?_some ho⟩

/-! ## The names of a compiled constraint -/

section

variable {scope : Scope} {members : Fields Rest}

/-- **The name of an entry** is that of its operator. -/
theorem name_compiled {operator : ConstraintOperator} {operand : Rest}
    {own : Option (String × Native)} (h : entry? scope members operator operand = .ok own) :
    own.map Prod.fst = operator.compiledName? scope.count := by
  cases hc : scope.count with
  | false =>
    obtain ⟨native, rfl⟩ := name_found hc h
    exact operator.compiledName?_found.symm
  | true =>
    have hs : scope.counting = scope := by rw [Scope.counting, ← hc]
    rw [← hs] at h
    by_cases hp : operator = .nearSphere
    · subst hp
      obtain ⟨placed, hplaced, rfl⟩ := Outcome.map_eq_ok.1 h
      unfold near at hplaced
      rw [hs, hc] at hplaced
      split at hplaced
      · cases hplaced
      · obtain ⟨distance, _, rfl⟩ := Outcome.map_eq_ok.1 hplaced
        rfl
    · cases hd : operator.isDistance with
      | true =>
        cases (entry_counting_distance hd).symm.trans h
        exact (ConstraintOperator.compiledName?_distance hd).symm
      | false =>
        obtain ⟨native, rfl⟩ := name_found rfl ((entry_counting hp hd).symm.trans h)
        exact (ConstraintOperator.compiledName?_counted hp hd).symm

/-- The names of the entries, in the order of the operators. -/
theorem keys_compiled : ∀ {order : List ConstraintOperator} {owns : Document},
    entries scope members order = .ok owns →
      Fields.keys owns =
        (order.filter fun operator => Fields.contains members operator.token).filterMap
          (ConstraintOperator.compiledName? scope.count)
  | [], _, h => by
    cases h
    rfl
  | operator :: rest, owns, h => by
    unfold entries at h
    rw [List.filter_cons, Fields.contains]
    split at h
    · rename_i hget
      rw [hget]
      exact keys_compiled h
    · rename_i operand hget
      rw [hget]
      split at h
      · cases h
      · rename_i own hown
        obtain ⟨later, hl, rfl⟩ := Outcome.map_eq_ok.1 h
        have hname := name_compiled hown
        rw [Fields.keys_append, keys_compiled hl, Option.isSome_some, if_pos rfl,
          List.filterMap_cons, ← hname]
        cases own <;> rfl

/-- The document of a constraint has the names of its operators. -/
theorem mem_keys_compiled {owns : Document}
    (h : entries scope members ConstraintOperator.order = .ok owns) {name : String} :
    name ∈ Fields.keys (Fields.ofList owns) ↔
      ∃ operator : ConstraintOperator, Fields.contains members operator.token = true ∧
        operator.compiledName? scope.count = some name := by
  rw [Fields.mem_keys_ofList, keys_compiled h, List.mem_filterMap]
  constructor
  · rintro ⟨operator, hm, hname⟩
    exact ⟨operator, (List.mem_filter.1 hm).2, hname⟩
  · rintro ⟨operator, hin, hname⟩
    exact ⟨operator, List.mem_filter.2 ⟨operator.mem_order, hin⟩, hname⟩

/-- A name that one operator alone is compiled to stands for that operator. -/
theorem contains_compiled {operator : ConstraintOperator} {name : String} {compiled : Document}
    (hname : ∀ other : ConstraintOperator,
      other.compiledName? scope.count = some name ↔ other = operator)
    (h : compile? scope (.object members) = .ok (some compiled)) :
    Fields.contains compiled name = Fields.contains members operator.token := by
  obtain ⟨_, _, owns, howns, rfl⟩ := compile?_eq_some.1 h
  rw [Bool.eq_iff_iff, ← Bool.not_eq_false, Fields.contains_eq_false_iff, not_not,
    mem_keys_compiled howns]
  simp only [hname, exists_eq_right]

/-- **What an operator compiles to is held under its name**, unless a later one takes the name. -/
theorem get?_compiled {operator : ConstraintOperator} {operand : Rest} {name : String}
    {compiled : Document} (h : compile? scope (.object members) = .ok (some compiled))
    (hget : Fields.get? members operator.token = some operand)
    (hname : operator.compiledName? scope.count = some name) :
    ∃ native, entry? scope members operator operand = .ok (some (name, native)) ∧
      ((∀ other ∈ operator.later, Fields.contains members other.token = true →
          other.compiledName? scope.count ≠ some name) →
        Fields.get? compiled name = some native) := by
  obtain ⟨_, _, owns, howns, rfl⟩ := compile?_eq_some.1 h
  obtain ⟨before, horder⟩ := operator.order_split
  rw [horder] at howns
  obtain ⟨first, rest, _, hrest, rfl⟩ := entries_append howns
  unfold entries at hrest
  rw [hget] at hrest
  dsimp only at hrest
  split at hrest
  · cases hrest
  · rename_i own hown
    obtain ⟨second, hsecond, rfl⟩ := Outcome.map_eq_ok.1 hrest
    have howned := name_compiled hown
    rw [hname, Option.map_eq_some_iff] at howned
    obtain ⟨⟨_, native⟩, rfl, rfl⟩ := howned
    refine ⟨native, hown, fun hlater => Fields.get?_insertAll_last [] first second ?_⟩
    rw [keys_compiled hsecond, List.mem_filterMap]
    rintro ⟨other, hother, htaken⟩
    obtain ⟨hafter, hin⟩ := List.mem_filter.1 hother
    exact hlater other hafter hin htaken

end

/-! ## Constraints in another order -/

section

variable {scope : Scope} {members reordered : Fields Rest}

/-- One order of the keys compiles to a result just when another one does. -/
theorem compile?_eq_ok_perm (h : reordered.Perm members) (hn : (Fields.keys members).Nodup)
    {result : Option Document} :
    compile? scope (.object reordered) = .ok result ↔
      compile? scope (.object members) = .ok result := by
  have hentries : entries scope reordered ConstraintOperator.order =
      entries scope members ConstraintOperator.order :=
    entries_congr (Fields.get?_perm h hn) ConstraintOperator.order
  have hknown := unknownKey?_eq_none_perm h
  unfold compile?
  simp only [h.all_eq, hentries]
  split
  · rfl
  · cases hr : unknownKey? reordered with
    | none => rw [hknown.1 hr]
    | some key =>
      cases hm : unknownKey? members with
      | none => cases hr.symm.trans (hknown.2 hm)
      | some other => simp only [reduceCtorEq]

/-- **The order of the keys of a constraint does not matter.** In every order they give the same
result, or none gives a result; with at most one unknown key the failures are the same, too. A
document accounts for every key: each is an operator, and the names of the document are exactly
those under which the operators are compiled, each standing once. -/
theorem reordered_compiles_alike (h : reordered.Perm members)
    (hn : (Fields.keys members).Nodup) :
    (∀ result, compile? scope (.object reordered) = .ok result ↔
      compile? scope (.object members) = .ok result) ∧
    ((unknownKeys members).length ≤ 1 →
      compile? scope (.object reordered) = compile? scope (.object members)) ∧
    ∀ compiled, compile? scope (.object members) = .ok (some compiled) →
      (∀ key ∈ Fields.keys members, ∃ operator : ConstraintOperator, operator.token = key) ∧
      (Fields.keys compiled).Nodup ∧
      ∀ name, name ∈ Fields.keys compiled ↔
        ∃ operator : ConstraintOperator, Fields.contains members operator.token = true ∧
          operator.compiledName? scope.count = some name := by
  refine ⟨fun result => compile?_eq_ok_perm h hn, fun hone => ?_, fun compiled hc => ?_⟩
  · have hentries : entries scope reordered ConstraintOperator.order =
        entries scope members ConstraintOperator.order :=
      entries_congr (Fields.get?_perm h hn) ConstraintOperator.order
    simp only [compile?, h.all_eq, unknownKey?_perm h hone, hentries]
  · obtain ⟨_, hknown, owns, howns, rfl⟩ := compile?_eq_some.1 hc
    exact ⟨fun key hk => exists_token_of_known hknown hk, Fields.nodup_ofList owns,
      fun name => mem_keys_compiled howns⟩

end

/-- Places near the shore whose ground is nothing but sand. -/
def sandyShore : Fields Rest := ("$containedBy", .array [.string "sand"]) :: nearShore

/-- What a count of them looks for. -/
def countedSandyShore : Document :=
  [("$geoWithin", .document (sphere storedShorePoint (.int32 1))),
    ("$elemMatch", .document [("$nin", .array [.string "sand"])])]

theorem reordered_compiles_alike_shore :
    sandyShore.reverse.Perm sandyShore ∧ (Fields.keys sandyShore).Nodup ∧
    (unknownKeys sandyShore).length ≤ 1 ∧
    compile? shoreScope.counting (.object sandyShore) = .ok (some countedSandyShore) ∧
    compile? shoreScope.counting (.object sandyShore.reverse) = .ok (some countedSandyShore) ∧
    compile? shoreScope.counting (.object sandyShore.reverse) =
      compile? shoreScope.counting (.object sandyShore) ∧
    (∀ key ∈ Fields.keys sandyShore, ∃ operator : ConstraintOperator, operator.token = key) ∧
    (Fields.keys countedSandyShore).Nodup ∧
    ∀ name, name ∈ Fields.keys countedSandyShore ↔
      ∃ operator : ConstraintOperator, Fields.contains sandyShore operator.token = true ∧
        operator.compiledName? true = some name := by
  have hperm : sandyShore.reverse.Perm sandyShore := List.reverse_perm sandyShore
  have hnodup : (Fields.keys sandyShore).Nodup := by decide
  have hone : (unknownKeys sandyShore).length ≤ 1 := by decide
  have hcompiled : compile? shoreScope.counting (.object sandyShore) =
      .ok (some countedSandyShore) := rfl
  obtain ⟨hresult, halike, hnames⟩ :=
    @reordered_compiles_alike shoreScope.counting sandyShore sandyShore.reverse hperm hnodup
  exact ⟨hperm, hnodup, hone, hcompiled, (hresult _).2 hcompiled, halike hone,
    hnames countedSandyShore hcompiled⟩

end Constraint

end RestStore
