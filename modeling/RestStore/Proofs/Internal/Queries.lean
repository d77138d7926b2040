import RestStore.Proofs.Fields
import RestStore.Proofs.Internal.Values
import RestStore.Where

/-!
# Internal failures of queries

A constraint and a where clause fail with the class `internal` only for a polygon without three
different vertices that stands in them. A geographic operand is no such case: its points are read
by the operator, which has failures of its own.

* `Constraint.operator_ringsOnly` — the entry of one operator, by the cases of the operators.
* `Constraint.compile?_ringsOnly` — constraints.
* `Where.document_ringsOnly` — where clauses.
-/

set_option autoImplicit false

namespace RestStore

/-- What stands in one of the values, at any depth. -/
def Rest.InsideOne (values : List Rest) (part : Rest) : Prop :=
  ∃ value ∈ values, value.Inside part

/-- What stands in a member of an object, at any depth. -/
def Rest.InsideMember (members : Fields Rest) (part : Rest) : Prop :=
  ∃ member ∈ members, member.2.Inside part

namespace Rest

variable {value part : Rest} {values : List Rest} {key : String} {members : Fields Rest}

theorem InsideOne.head (h : value.Inside part) : InsideOne (value :: values) part :=
  ⟨value, List.mem_cons_self, h⟩

theorem InsideOne.tail (h : InsideOne values part) : InsideOne (value :: values) part := by
  obtain ⟨other, hm, hp⟩ := h
  exact ⟨other, List.mem_cons_of_mem _ hm, hp⟩

theorem InsideOne.array (h : InsideOne values part) : Inside (.array values) part := by
  obtain ⟨other, hm, hp⟩ := h
  exact .item hm hp

theorem InsideMember.head (h : value.Inside part) : InsideMember ((key, value) :: members) part :=
  ⟨(key, value), List.mem_cons_self, h⟩

theorem InsideMember.tail (h : InsideMember members part) :
    InsideMember ((key, value) :: members) part := by
  obtain ⟨member, hm, hp⟩ := h
  exact ⟨member, List.mem_cons_of_mem _ hm, hp⟩

theorem InsideMember.object (h : InsideMember members part) : Inside (.object members) part := by
  obtain ⟨member, hm, hp⟩ := h
  exact .member hm hp

theorem insideMember_of_get? (h : Fields.get? members key = some value)
    (hp : value.Inside part) : InsideMember members part :=
  ⟨(key, value), Fields.mem_of_get? h, hp⟩

end Rest

namespace Constraint

variable {parts : Rest → Prop}

/-! ## Single values and lists -/

theorem atom_ringsOnly (scope : Scope) (value : Rest) :
    RingsOnly value.Inside (atom scope value) := by
  unfold atom
  split
  · exact Native.element_ringsOnly scope.guard value
  · split
    · exact (Native.columnAtom?_ringsOnly scope.field value).of_error ‹_›
    · exact .ok _
    · exact .error rfl

theorem atoms_ringsOnly (scope : Scope) (items : List Rest) :
    RingsOnly (Rest.InsideOne items) (atoms scope items) := by
  induction items with
  | nil => exact .ok _
  | cons item rest ih =>
    unfold atoms
    split
    · exact ((atom_ringsOnly scope item).mono fun _ => .head).of_error ‹_›
    · exact (ih.mono fun _ => .tail).map _

theorem relativeTime_ringsOnly (scope : Scope) (operator : ConstraintOperator) (phrase : Rest) :
    RingsOnly parts (relativeTime scope operator phrase) := by
  unfold relativeTime
  split
  · exact .error rfl
  split
  · exact .error rfl
  split
  · split
    · exact .ok _
    · exact .error rfl
  · exact .error rfl

theorem comparison_ringsOnly (scope : Scope) (operator : ConstraintOperator) (operand : Rest) :
    RingsOnly operand.Inside (comparison scope operator operand) := by
  unfold comparison
  split
  · exact relativeTime_ringsOnly scope operator _
  · exact atom_ringsOnly scope operand

/-- A list that is spread holds what the list of lists holds. -/
theorem inside_of_spread {items : List Rest} {part : Rest}
    (h : Rest.InsideOne (spread items) part) : Rest.Inside (.array items) part := by
  obtain ⟨value, hm, hp⟩ := h
  obtain ⟨item, hitem, hv⟩ := List.mem_flatMap.1 hm
  refine .item hitem ?_
  cases item with
  | array inner => exact .item hv hp
  | null | bool _ | number _ | string _ | object _ =>
    rw [List.mem_singleton] at hv
    exact hv ▸ hp

theorem membership_ringsOnly (scope : Scope) (operator : ConstraintOperator) (operand : Rest) :
    RingsOnly operand.Inside (membership scope operator operand) := by
  unfold membership
  split
  · exact ((atoms_ringsOnly scope _).mono fun _ => inside_of_spread).map _
  · exact .error rfl

theorem allOf_ringsOnly (scope : Scope) (operand : Rest) :
    RingsOnly parts (allOf scope operand) := by
  unfold allOf
  split
  · split
    · exact (Native.elements_ringsOnly scope.guard _).of_error ‹_›
    · split
      · exact .error rfl
      · exact .ok _
  · exact .error rfl

theorem containment_ringsOnly (scope : Scope) (operand : Rest) :
    RingsOnly operand.Inside (containment scope operand) := by
  unfold containment
  split
  · exact ((atoms_ringsOnly scope _).mono fun _ => Rest.InsideOne.array).map _
  · exact .error rfl

/-! ## Text searches and geographic operands -/

theorem textSearch_ringsOnly (operand : Rest) : RingsOnly parts (textSearch operand) := by
  have hterm : ∀ search, RingsOnly parts (term search) := by
    intro search
    unfold term
    split
    · split
      · exact .error rfl
      · exact .ok _
    · exact .error rfl
  have hlanguage : ∀ search, RingsOnly parts (language search) := by
    intro search
    unfold language
    split
    · exact .ok _
    · exact .ok _
    · exact .error rfl
  have hflag : ∀ search key, RingsOnly parts (searchFlag search key) := by
    intro search key
    unfold searchFlag
    split
    · exact .ok _
    · exact .ok _
    · exact .error rfl
  unfold textSearch
  split
  · exact (hterm _).bind fun _ => (hlanguage _).bind fun _ => (hflag _ _).bind fun _ =>
      (hflag _ _).bind fun _ => .ok _
  · exact .error rfl

theorem pointOperand_ringsOnly (fault : ConstraintFault) (value : Rest) :
    RingsOnly parts (pointOperand fault value) := by
  have hk : ((Failure.constraint fault).kind == .internal) = false := by cases fault <;> rfl
  unfold pointOperand
  split
  · split
    · split
      · exact .ok _
      · exact .error hk
    · exact .error hk
  · exact .error hk

theorem globePair_ringsOnly (point : GeoPoint) : RingsOnly parts (globePair point) := by
  have hcheck : RingsOnly parts point.validate := by
    unfold GeoPoint.validate checkCoordinates
    repeat' split
    all_goals first | exact .ok _ | exact .error rfl
  exact hcheck.map _

theorem vertices_ringsOnly (items : List Rest) : RingsOnly parts (vertices items) := by
  induction items with
  | nil => exact .ok _
  | cons item rest ih =>
    have hvertex : RingsOnly parts (vertex item) := by
      unfold vertex
      extract_lets point
      cases point with
      | some point => exact globePair_ringsOnly point
      | none => exact .error rfl
    unfold vertices
    split
    · exact hvertex.of_error ‹_›
    · exact ih.map _

theorem polygonRegion_ringsOnly (value : Rest) : RingsOnly parts (polygonRegion value) := by
  have hpoints : RingsOnly parts (polygonPoints value) := by
    unfold polygonPoints
    repeat' split
    all_goals first | exact .ok _ | exact .error rfl
  unfold polygonRegion
  split
  · exact hpoints.of_error ‹_›
  · exact (vertices_ringsOnly _).map _

theorem sphereRegion_ringsOnly (value : Rest) : RingsOnly parts (sphereRegion value) := by
  unfold sphereRegion
  split
  · split
    · exact .error rfl
    · split
      · exact (globePair_ringsOnly _).of_error ‹_›
      · split
        · exact .ok _
        · exact .error rfl
  · exact .error rfl

theorem region_ringsOnly (operand : Rest) : RingsOnly parts (region operand) := by
  unfold region
  split
  · exact polygonRegion_ringsOnly _
  · exact sphereRegion_ringsOnly _
  · exact .error rfl

theorem intersection_ringsOnly (operand : Rest) : RingsOnly parts (intersection operand) := by
  unfold intersection
  split
  · exact .error rfl
  · split
    · exact (pointOperand_ringsOnly _ _).of_error ‹_›
    · exact (globePair_ringsOnly _).map _

theorem box_ringsOnly (operand : Rest) : RingsOnly parts (box operand) := by
  unfold box
  split
  · split
    · exact (pointOperand_ringsOnly _ _).of_error ‹_›
    · exact (pointOperand_ringsOnly _ _).map _
  · exact .error rfl

theorem radians_ringsOnly (operator : ConstraintOperator) (units : Nat) (operand : Rest) :
    RingsOnly parts (radians operator units operand) := by
  unfold radians
  split
  · split
    · exact .ok _
    · exact .ok _
  · exact .error rfl

theorem firstDistance_ringsOnly (members : Fields Rest) : ∀ order : List ConstraintOperator,
    RingsOnly parts (firstDistance members order)
  | [] => .error rfl
  | operator :: rest => by
    unfold firstDistance
    split
    · exact radians_ringsOnly operator _ _
    · exact firstDistance_ringsOnly members rest

theorem near_ringsOnly (scope : Scope) (members : Fields Rest) (operand : Rest) :
    RingsOnly parts (near scope members operand) := by
  unfold near
  split
  · exact (pointOperand_ringsOnly _ _).of_error ‹_›
  · split
    · exact (firstDistance_ringsOnly members _).map _
    · exact .ok _

/-! ## Operators -/

/-- **The entry of an operator** fails internally only for a polygon in its operand. -/
theorem operator_ringsOnly (scope : Scope) (members : Fields Rest) (operator : ConstraintOperator)
    (operand : Rest) : RingsOnly operand.Inside ( entry? scope members operator operand) := by
  cases operator with
  | less | lessOrEqual | greater | greaterOrEqual | isPresent | notEqual | equal =>
    exact (comparison_ringsOnly scope _ operand).map _
  | isIn | notIn => exact (membership_ringsOnly scope _ operand).map _
  | all => exact (allOf_ringsOnly scope operand).map _
  | regex =>
    cases operand with
    | string pattern => exact .ok _
    | null | bool _ | number _ | array _ | object _ => exact .error rfl
  | options => exact (Native.verbatim_ringsOnly scope.guard operand).map _
  | containedBy => exact (containment_ringsOnly scope operand).map _
  | text => exact ((textSearch_ringsOnly operand).map _).map _
  | nearSphere => exact (near_ringsOnly scope members operand).map _
  | maxDistance | maxDistanceInRadians | maxDistanceInMiles | maxDistanceInKilometers =>
    unfold Constraint.entry?
    dsimp only
    split
    · exact .ok _
    · exact (radians_ringsOnly _ _ operand).map _
  | select | dontSelect => exact .error rfl
  | within => exact ((box_ringsOnly operand).map _).map _
  | geoWithin => exact ((region_ringsOnly operand).map _).map _
  | geoIntersects => exact ((intersection_ringsOnly operand).map _).map _

theorem entries_ringsOnly (scope : Scope) (members : Fields Rest) :
    ∀ order : List ConstraintOperator,
      RingsOnly (Rest.InsideMember members) (entries scope members order)
  | [] => .ok _
  | operator :: rest => by
    unfold entries
    split
    · exact entries_ringsOnly scope members rest
    · rename_i operand hget
      split
      · exact ((operator_ringsOnly scope members operator operand).mono fun _ =>
          Rest.insideMember_of_get? hget).of_error ‹_›
      · exact (entries_ringsOnly scope members rest).map _

theorem compile?_ringsOnly (scope : Scope) (value : Rest) :
    RingsOnly value.Inside (compile? scope value) := by
  unfold compile?
  split
  · split
    · exact .ok _
    · split
      · exact .error rfl
      · exact ((entries_ringsOnly scope _ _).mono fun _ => Rest.InsideMember.object).map _
  · exact .ok _

end Constraint

/-! ## Fields and clauses -/

theorem integerId_ringsOnly {parts : Rest → Prop} (origin : Origin) (value : Rest) :
    RingsOnly parts (integerId origin value) := by
  unfold integerId
  split
  · exact .ok _
  · exact .error rfl

namespace Where

variable (scope : Scope) (guard : Nesting)

theorem idEntry_ringsOnly {parts : Rest → Prop} (value : Rest) :
    RingsOnly parts (idEntry scope guard value) := by
  have hgiven : RingsOnly parts (Native.verbatim guard value) :=
    Native.verbatim_ringsOnly guard value
  have hid : RingsOnly parts
      (if scope.target.hasNumericIds then integerId .query value
        else Native.verbatim guard value) := by
    split
    · exact integerId_ringsOnly .query value
    · exact hgiven
  cases value with
  | string _ | number _ => exact hid.map _
  | null | bool _ | array _ | object _ => exact hgiven.map _

theorem valueEntry_ringsOnly (key : String) (value : Rest) :
    RingsOnly value.Inside (valueEntry scope guard key value) := by
  unfold valueEntry
  extract_lets schema column isArray atom
  have hatom : RingsOnly value.Inside atom := by
    unfold atom
    split
    · exact Native.nestedAtom?_ringsOnly value
    · exact Native.columnAtom?_ringsOnly _ value
  clear_value atom
  split
  · exact (Native.element_ringsOnly guard value).map _
  · split
    · exact hatom.of_error rfl
    · exact .ok _
    · exact .error rfl

theorem plainEntry_ringsOnly (key : String) (value : Rest) :
    RingsOnly value.Inside (plainEntry scope guard key value) := by
  unfold plainEntry
  extract_lets column
  split
  · exact .ok _
  · split
    · exact (Constraint.compile?_ringsOnly _ value).of_error ‹_›
    · exact .ok _
    · exact valueEntry_ringsOnly scope guard key value

theorem fieldEntry_ringsOnly (key : String) (value : Rest) :
    RingsOnly value.Inside (fieldEntry scope guard key value) := by
  unfold fieldEntry
  split
  · exact idEntry_ringsOnly scope guard value
  · split
    · exact (Native.verbatim_ringsOnly guard value).map _
    · exact plainEntry_ringsOnly scope guard key value

mutual

theorem entries_ringsOnly : ∀ (guard : Nesting) (members : List (String × Rest)),
    RingsOnly (Rest.InsideMember members) (entries scope guard members)
  | _, [] => .ok _
  | guard, (key, value) :: rest => by
    unfold entries
    split
    · exact ((entry_ringsOnly guard key value).mono fun _ => .head).of_error ‹_›
    · exact ((entries_ringsOnly guard rest).mono fun _ => .tail).map _

theorem entry_ringsOnly : ∀ (guard : Nesting) (key : String) (value : Rest),
    RingsOnly value.Inside (entry scope guard key value) := by
  intro guard key value
  unfold entry
  split
  · cases value with
    | array clauses =>
      exact ((subclauses_ringsOnly guard key clauses).mono fun _ => Rest.InsideOne.array).map _
    | null | bool _ | number _ | string _ | object _ => exact .error rfl
  · exact fieldEntry_ringsOnly scope guard key value

theorem subclauses_ringsOnly : ∀ (guard : Nesting) (key : String) (clauses : List Rest),
    RingsOnly (Rest.InsideOne clauses) (subclauses scope guard key clauses)
  | _, _, [] => .ok _
  | guard, key, clause :: rest => by
    unfold subclauses
    split
    · exact ((subclause_ringsOnly guard key clause).mono fun _ => .head).of_error ‹_›
    · exact ((subclauses_ringsOnly guard key rest).mono fun _ => .tail).map _

theorem subclause_ringsOnly : ∀ (guard : Nesting) (key : String) (clause : Rest),
    RingsOnly clause.Inside (subclause scope guard key clause) := by
  intro guard key clause
  unfold subclause
  cases clause with
  | object members =>
    dsimp only
    split
    · exact (enter_ringsOnly guard).of_error ‹_›
    · exact ((entries_ringsOnly _ members).mono fun _ => Rest.InsideMember.object).map _
  | null | bool _ | number _ | string _ | array _ => exact .error rfl

end

/-- **A where clause** fails internally only for a polygon that stands in it. -/
theorem document_ringsOnly (members : Fields Rest) :
    RingsOnly (Rest.InsideMember members) (document scope members) := by
  unfold document
  split
  · exact (enter_ringsOnly _).of_error ‹_›
  · exact (entries_ringsOnly scope _ members).map _

end Where

end RestStore
