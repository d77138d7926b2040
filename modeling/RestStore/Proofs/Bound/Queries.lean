import RestStore.Proofs.Bound.Values
import RestStore.Where

/-!
# Queries below a larger bound

A constraint and a where clause that the bound does not refuse compile to the same query below a
larger one, or fail in the same way.

* `compile?_onlyRefuses` — constraints.
* `Where.entries_onlyRefuses` — the entries of a clause and of its subclauses.
* `Where.document_onlyRefuses` — where clauses.
-/

set_option autoImplicit false

namespace RestStore

/-- The class with another bound on nesting. -/
def Target.withDepth (target : Target) (bound : Nat) : Target :=
  { target with config := { target.config with maxDepth := bound } }

namespace Constraint

variable {scope : Scope} {loose : Nesting}

/-! ## Constraints -/

theorem atom_onlyRefuses (h : scope.guard.Loosens loose) (value : Rest) :
    OnlyRefuses (atom scope value) (atom { scope with guard := loose } value) := by
  unfold atom
  rw [show Scope.fieldIs { scope with guard := loose } .array = scope.fieldIs .array from rfl]
  split
  · exact Native.element_onlyRefuses h value
  · exact .refl _

theorem atoms_onlyRefuses (h : scope.guard.Loosens loose) (items : List Rest) :
    OnlyRefuses (atoms scope items) (atoms { scope with guard := loose } items) := by
  induction items with
  | nil => exact .refl _
  | cons item rest ih =>
    unfold atoms
    exact (atom_onlyRefuses h item).elim (fun _ _ _ => .tooDeep) (fun _ => .refl _)
      fun _ => ih.map _

theorem comparison_onlyRefuses (h : scope.guard.Loosens loose) (operator : ConstraintOperator)
    (operand : Rest) : OnlyRefuses (comparison scope operator operand)
      (comparison { scope with guard := loose } operator operand) := by
  unfold comparison
  split
  · exact .refl _
  · exact atom_onlyRefuses h operand

theorem membership_onlyRefuses (h : scope.guard.Loosens loose) (operator : ConstraintOperator)
    (operand : Rest) : OnlyRefuses (membership scope operator operand)
      (membership { scope with guard := loose } operator operand) := by
  unfold membership
  split
  · exact (atoms_onlyRefuses h _).map _
  · exact .refl _

theorem allOf_onlyRefuses (h : scope.guard.Loosens loose) (operand : Rest) :
    OnlyRefuses (allOf scope operand) (allOf { scope with guard := loose } operand) := by
  unfold allOf
  split
  · exact (Native.elements_onlyRefuses h _).elim (fun _ _ _ => .tooDeep) (fun _ => .refl _)
      fun _ => .refl _
  · exact .refl _

theorem containment_onlyRefuses (h : scope.guard.Loosens loose) (operand : Rest) :
    OnlyRefuses (containment scope operand)
      (containment { scope with guard := loose } operand) := by
  unfold containment
  split
  · exact (atoms_onlyRefuses h _).map _
  · exact .refl _

/-- The entry of an operator; the geographic ones and text searches have no operand with a depth. -/
theorem operator_onlyRefuses (h : scope.guard.Loosens loose) (members : Fields Rest)
    (operator : ConstraintOperator) (operand : Rest) :
    OnlyRefuses ( entry? scope members operator operand)
      ( entry? { scope with guard := loose } members operator operand) := by
  cases operator with
  | less | lessOrEqual | greater | greaterOrEqual | isPresent | notEqual | equal =>
    exact (comparison_onlyRefuses h _ operand).map _
  | isIn | notIn => exact (membership_onlyRefuses h _ operand).map _
  | all => exact (allOf_onlyRefuses h operand).map _
  | options => exact (Native.verbatim_onlyRefuses h operand).map _
  | containedBy => exact (containment_onlyRefuses h operand).map _
  | regex | text | nearSphere | maxDistance | maxDistanceInRadians | maxDistanceInMiles
  | maxDistanceInKilometers | select | dontSelect | within | geoWithin | geoIntersects =>
    exact .refl _

theorem entries_onlyRefuses (h : scope.guard.Loosens loose) (members : Fields Rest) :
    ∀ order : List ConstraintOperator, OnlyRefuses (entries scope members order)
      (entries { scope with guard := loose } members order)
  | [] => .refl _
  | operator :: rest => by
    unfold entries
    split
    · exact entries_onlyRefuses h members rest
    · exact (operator_onlyRefuses h members operator _).elim (fun _ _ _ => .tooDeep)
        (fun _ => .refl _) fun _ => (entries_onlyRefuses h members rest).map _

/-- **A constraint that is not too deep** compiles in the same way below a larger bound. -/
theorem compile?_onlyRefuses (h : scope.guard.Loosens loose) (value : Rest) :
    OnlyRefuses (compile? scope value) (compile? { scope with guard := loose } value) := by
  unfold compile?
  split
  · split
    · exact .refl _
    · split
      · exact .refl _
      · exact (entries_onlyRefuses h _ _).map _
  · exact .refl _

end Constraint

namespace Where

/-- The scope with another bound on nesting. -/
def Scope.withDepth (scope : Scope) (bound : Nat) : Scope :=
  { scope with target := scope.target.withDepth bound }

section

variable {scope : Scope} {tight loose : Nesting} (looser : Nat)

/-! ## Fields -/

theorem idEntry_onlyRefuses (h : tight.Loosens loose) (value : Rest) :
    OnlyRefuses (idEntry scope tight value) (idEntry (scope.withDepth looser) loose value) := by
  have hverbatim := Native.verbatim_onlyRefuses h
  unfold idEntry
  cases value with
  | string _ | number _ =>
    dsimp only
    rw [show (scope.withDepth looser).target.hasNumericIds = scope.target.hasNumericIds from rfl]
    split
    · exact .refl _
    · exact (hverbatim _).map _
  | null | bool _ | array _ | object _ => exact (hverbatim _).map _

theorem valueEntry_onlyRefuses (h : tight.Loosens loose) (key : String) (value : Rest) :
    OnlyRefuses (valueEntry scope tight key value)
      (valueEntry (scope.withDepth looser) loose key value) := by
  unfold valueEntry
  rw [show (scope.withDepth looser).target.schema = scope.target.schema from rfl]
  extract_lets schema column isArray atom
  split
  · exact (Native.element_onlyRefuses h value).map _
  · exact .refl _

theorem plainEntry_onlyRefuses (h : tight.Loosens loose) (key : String) (value : Rest) :
    OnlyRefuses (plainEntry scope tight key value)
      (plainEntry (scope.withDepth looser) loose key value) := by
  unfold plainEntry
  dsimp only
  cases timeText? key value with
  | some native => exact .refl _
  | none =>
    have hconstraint : ∀ field, OnlyRefuses
        (Constraint.compile? ⟨field, scope.count, scope.now, tight⟩ value)
        (Constraint.compile? ⟨field, scope.count, scope.now, loose⟩ value) :=
      fun field => Constraint.compile?_onlyRefuses h value
    refine (hconstraint (scope.target.schema.field? key)).elim (fun _ _ _ => .tooDeep)
      (fun _ => .refl _) ?_
    intro constraint
    cases constraint with
    | some constraint => exact .refl _
    | none => exact valueEntry_onlyRefuses looser h key value

theorem fieldEntry_onlyRefuses (h : tight.Loosens loose) (key : String) (value : Rest) :
    OnlyRefuses (fieldEntry scope tight key value)
      (fieldEntry (scope.withDepth looser) loose key value) := by
  unfold fieldEntry
  split
  · exact idEntry_onlyRefuses looser h value
  · split
    · exact (Native.verbatim_onlyRefuses h value).map _
    · exact plainEntry_onlyRefuses looser h key value

end

/-! ## Clauses -/

-- by recursion on the clause: the subclauses below a combinator are one level down
mutual

theorem entries_onlyRefuses {scope : Scope} (looser : Nat) : ∀ {members : List (String × Rest)}
    {tight loose : Nesting}, tight.Loosens loose →
      OnlyRefuses (entries scope tight members) (entries (scope.withDepth looser) loose members)
  | [], _, _, _ => .refl _
  | (_, _) :: _, _, _, h => by
    unfold entries
    exact (entry_onlyRefuses looser h).elim (fun _ _ _ => .tooDeep) (fun _ => .refl _)
      fun _ => (entries_onlyRefuses looser h).map _

theorem entry_onlyRefuses {scope : Scope} (looser : Nat) : ∀ {value : Rest} {key : String}
    {tight loose : Nesting}, tight.Loosens loose →
      OnlyRefuses (entry scope tight key value)
        (entry (scope.withDepth looser) loose key value) := by
  intro value key tight loose h
  unfold entry
  split
  · cases value with
    | array clauses => exact (subclauses_onlyRefuses looser h).map _
    | null | bool _ | number _ | string _ | object _ => exact .refl _
  · exact fieldEntry_onlyRefuses looser h key value

theorem subclauses_onlyRefuses {scope : Scope} (looser : Nat) : ∀ {clauses : List Rest}
    {key : String} {tight loose : Nesting}, tight.Loosens loose →
      OnlyRefuses (subclauses scope tight key clauses)
        (subclauses (scope.withDepth looser) loose key clauses)
  | [], _, _, _, _ => .refl _
  | _ :: _, _, _, _, h => by
    unfold subclauses
    exact (subclause_onlyRefuses looser h).elim (fun _ _ _ => .tooDeep) (fun _ => .refl _)
      fun _ => (subclauses_onlyRefuses looser h).map _

theorem subclause_onlyRefuses {scope : Scope} (looser : Nat) : ∀ {clause : Rest}
    {key : String} {tight loose : Nesting}, tight.Loosens loose →
      OnlyRefuses (subclause scope tight key clause)
        (subclause (scope.withDepth looser) loose key clause) := by
  intro clause key tight loose h
  unfold subclause
  cases clause with
  | object members =>
    dsimp only
    rcases h.enter with ⟨_, _, hi⟩ | ⟨inner, outer, hi, ho, hd⟩
    · rw [hi]
      exact .tooDeep
    · rw [hi, ho]
      exact (entries_onlyRefuses looser hd).map _
  | null | bool _ | number _ | string _ | array _ => exact .refl _

end

/-- **A where clause that is not too deep** compiles in the same way below a larger bound. -/
theorem document_onlyRefuses (scope : Scope) (members : Fields Rest) {bound looser : Nat}
    (h : bound ≤ looser) : OnlyRefuses (document (scope.withDepth bound) members)
      (document (scope.withDepth looser) members) := by
  unfold document
  rcases (Nesting.loosens_top h .query).enter with ⟨_, _, hi⟩ | ⟨inner, outer, hi, ho, hd⟩
  · rw [show (scope.withDepth bound).target.config.maxDepth = bound from rfl, hi]
    exact .tooDeep
  · rw [show (scope.withDepth bound).target.config.maxDepth = bound from rfl,
      show (scope.withDepth looser).target.config.maxDepth = looser from rfl, hi, ho]
    exact (entries_onlyRefuses looser hd).map _

end Where

end RestStore
