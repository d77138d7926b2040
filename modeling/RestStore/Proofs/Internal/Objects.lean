import RestStore.Proofs.Internal.Branches
import RestStore.Proofs.Internal.Queries

/-!
# Internal failures of objects

A new object and an update fail with the class `internal` only for a polygon without three different
vertices that stands in them. `internal_only_for_rings` puts this together with queries and with the
branches that no input reaches.

* `ofMembers?_ringsOnly` — permissions blame nothing.
* `Create.document_ringsOnly`, `Update.document_ringsOnly` — objects that are written.
-/

set_option autoImplicit false

namespace RestStore

/-! ## Permissions -/

namespace PermissionSet

variable {parts : Rest → Prop}

theorem grantsOfAcl_ringsOnly (acl : List (String × Rest)) :
    RingsOnly parts (grantsOfAcl acl) := by
  induction acl with
  | nil => exact .ok _
  | cons entry rest ih =>
    obtain ⟨id, value⟩ := entry
    have hflag : ∀ key grant, RingsOnly parts (flag id key grant) := by
      intro key grant
      unfold flag
      split
      · exact .ok _
      · exact .ok _
      · exact .ok _
      · exact .error rfl
    have hgrant : RingsOnly parts (grantOfRest id value) := by
      unfold grantOfRest
      split
      · split
        · exact (hflag _ _).of_error ‹_›
        · exact (hflag _ _).map _
      · exact .error rfl
    unfold grantsOfAcl
    split
    · exact hgrant.of_error ‹_›
    · exact ih.map _

theorem ofMembers?_ringsOnly (members : Fields Rest) :
    RingsOnly parts (ofMembers? members) := by
  have hlist : ∀ key, RingsOnly parts (idList members key) := by
    intro key
    unfold idList
    split
    · exact .ok _
    · split
      · exact .ok _
      · exact .error rfl
    · exact .error rfl
  unfold ofMembers?
  split
  · exact ((grantsOfAcl_ringsOnly _).map _).map _
  · exact .error rfl
  · split
    · exact (hlist _).of_error ‹_›
    · exact (hlist _).map _

end PermissionSet

/-! ## New objects -/

namespace Create

variable (target : Target)

theorem timeValue_ringsOnly (key : String) (value : Rest) :
    RingsOnly value.Inside (timeValue target key value) := by
  unfold timeValue
  split
  · exact (ofText_ringsOnly _).map _
  · split
    · exact (Native.columnAtom?_ringsOnly _ value).of_error ‹_›
    · exact .ok _
    · exact .error rfl

theorem column?_ringsOnly (key : String) (value : Rest) :
    RingsOnly value.Inside (column? target key value) := by
  have hplain : RingsOnly value.Inside (plainValue? target key value) := by
    unfold plainValue?
    split
    · exact (Native.columnAtom?_ringsOnly _ value).of_error ‹_›
    · exact .ok _
    · exact Native.nested_ringsOnly _ value
  unfold column?
  split
  · exact (Native.verbatim_ringsOnly _ value).map _
  · split
    · exact (timeValue_ringsOnly target key value).map _
    · split
      · exact .error rfl
      · exact hplain.map _

theorem columns_ringsOnly : ∀ members : Fields Rest,
    RingsOnly (Rest.InsideMember members) (columns target members)
  | [] => .ok _
  | (key, value) :: rest => by
    have hrest : RingsOnly (Rest.InsideMember ((key, value) :: rest)) (columns target rest) :=
      (columns_ringsOnly rest).mono fun _ => .tail
    unfold columns
    split
    · exact hrest
    · split
      · exact ((column?_ringsOnly target key value).mono fun _ => .head).of_error ‹_›
      · exact hrest.map _

/-- **A new object** fails internally only for a polygon that stands in it. -/
theorem document_ringsOnly (members : Fields Rest) :
    RingsOnly (Rest.InsideMember members) (document target members) := by
  unfold document
  split
  · exact ((PermissionSet.ofMembers?_ringsOnly members).map _).of_error ‹_›
  · exact (columns_ringsOnly target members).map _

end Create

/-! ## Updates -/

namespace Update

variable (target : Target)

theorem compound?_ringsOnly {parts : Rest → Prop} (column : String) (value : Rest) :
    RingsOnly parts (compound? target column value) := by
  unfold compound?
  split
  · split
    · split
      · exact (Operation.ofMembers_ringsOnly _).of_error ‹_›
      · exact (Operation.update_ringsOnly _ _).map _
    · exact (Native.nested_ringsOnly _ _).map _
  · exact (Native.nested_ringsOnly _ _).map _

theorem value?_ringsOnly (key column : String) (value : Rest) :
    RingsOnly value.Inside ( value? target key column value) := by
  unfold Update.value?
  split
  · exact (Native.columnAtom?_ringsOnly _ value).of_error ‹_›
  · split
    · exact (Native.verbatim_ringsOnly _ value).map _
    · exact .ok _
  · exact compound?_ringsOnly target column value

theorem field?_ringsOnly (key : String) (value : Rest) :
    RingsOnly value.Inside ( field? target key value) := by
  unfold Update.field?
  extract_lets column
  split
  · exact .ok _
  · exact (ofText_ringsOnly _).map _
  · split
    · exact (integerId_ringsOnly _ _).map _
    · exact value?_ringsOnly target key column.name _
  · exact value?_ringsOnly target key column.name _

theorem fields_ringsOnly : ∀ members : Fields Rest,
    RingsOnly (Rest.InsideMember members) (fields target members)
  | [] => .ok _
  | (key, value) :: rest => by
    have hrest : RingsOnly (Rest.InsideMember ((key, value) :: rest)) (fields target rest) :=
      (fields_ringsOnly rest).mono fun _ => .tail
    unfold fields
    split
    · exact hrest
    · split
      · exact ((field?_ringsOnly target key value).mono fun _ => .head).of_error ‹_›
      · exact hrest.map _

/-- **An update** fails internally only for a polygon that stands in it. -/
theorem document_ringsOnly (members : Fields Rest) :
    RingsOnly (Rest.InsideMember members) (document target members) := by
  have hcontributions : RingsOnly (Rest.InsideMember members) (contributions target members) := by
    unfold contributions
    split
    · exact ((PermissionSet.ofMembers?_ringsOnly members).map _).of_error ‹_›
    · exact (fields_ringsOnly target members).map _
  exact hcontributions.map _

end Update

/-! ## Internal failures -/

/-- The failure is that of a polygon somewhere in an object, whose closed ring has fewer than three
different vertices. -/
def IsRingFailure (members : Fields Rest) (failure : Failure) : Prop :=
  ∃ part polygon, Rest.InsideMember members part ∧ part.shape = .ok (.polygon polygon) ∧
    polygon.toNative = .error failure ∧ failure = .atom .degenerateRing ∧
    (Polygon.distinct (Polygon.closed polygon.vertices)).length < 3

theorem RingsOnly.isRingFailure {α : Type} {members : Fields Rest} {outcome : Except Failure α}
    (h : RingsOnly (Rest.InsideMember members) outcome) {failure : Failure}
    (he : outcome = .error failure) (hk : failure.kind = .internal) :
    IsRingFailure members failure := by
  obtain ⟨part, polygon, hp, hs, hf⟩ := h failure he hk
  obtain ⟨hring, hfew⟩ := Polygon.toNative_error hf
  exact ⟨part, polygon, hp, hs, hf, hring, hfew⟩

/-- **An internal failure is that of a degenerate polygon.** A where clause, a new object and an
update have no other; the dispatches of constraint operators, of nested values and of the fields of
an update never reach the arm that reports a broken invariant; and an operation, flattened or not,
has the kind of output that is asked for and is refused for the same reasons. -/
theorem internal_only_for_rings :
    (∀ scope members failure, Where.document scope members = .error failure →
      failure.kind = .internal → IsRingFailure members failure) ∧
    (∀ target members failure, Create.document target members = .error failure →
      failure.kind = .internal → IsRingFailure members failure) ∧
    (∀ target members failure, Update.document target members = .error failure →
      failure.kind = .internal → IsRingFailure members failure) ∧
    (∀ scope members operator operand,
      Constraint.dispatch scope members operator operand =
          Fault.ofStep (Constraint.entry? scope members operator operand) ∧
        Fault.NeverBroken (Constraint.dispatch scope members operator operand)) ∧
    (∀ guard value, Native.walk guard value = Fault.ofStep (Native.nested guard value) ∧
      Fault.NeverBroken (Native.walk guard value)) ∧
    (∀ target key column value,
      Update.dispatch target key column value =
          Fault.ofStep (Update.value? target key column value) ∧
        Fault.NeverBroken (Update.dispatch target key column value)) ∧
    ∀ guard members,
      (∀ flattened output, Operation.compile flattened guard members = .ok output →
        (output.IsOperator ↔ flattened = false)) ∧
      ∀ failure, Operation.compile true guard members = .error failure ↔
        Operation.compile false guard members = .error failure := by
  refine ⟨fun scope members _ => (Where.document_ringsOnly scope members).isRingFailure,
    fun target members _ => (Create.document_ringsOnly target members).isRingFailure,
    fun target members _ => (Update.document_ringsOnly target members).isRingFailure,
    fun scope members operator operand => ?_, fun guard value => ?_,
    fun target key column value => ?_, fun guard members => ⟨fun _ _ => ?_, ?_⟩⟩
  · have h := Constraint.dispatch_eq scope members operator operand
    exact ⟨h, Fault.neverBroken_of_eq h⟩
  · have h := Native.walk_eq guard value
    exact ⟨h, Fault.neverBroken_of_eq h⟩
  · have h := Update.dispatch_eq target key column value
    exact ⟨h, Fault.neverBroken_of_eq h⟩
  · exact Operation.isOperator_of_compile guard members
  · exact Operation.compile_error_iff guard members

/-- The class of plots of land. -/
def plotTarget : Target := ⟨"Plot", .empty, .standard⟩

/-- A plot whose area has only two different corners. -/
def flatPlot : Fields Rest :=
  [("area", Polygon.toEnvelope ⟨[⟨.integer 0, .integer 0⟩, ⟨.integer 0, .integer 5⟩]⟩)]

/-- A clause for plots of that area, below a combinator. -/
def flatPlotClause : Fields Rest := [("$or", .array [.object flatPlot])]

/-- The operation that deletes a field. -/
def deletion : Fields Rest := [(operationKey, .string "Delete")]

theorem internal_only_for_rings_plot :
    (Where.document ⟨plotTarget, false, ⟨0, 0⟩⟩ flatPlotClause = .error (.atom .degenerateRing) ∧
      IsRingFailure flatPlotClause (.atom .degenerateRing)) ∧
    (Create.document plotTarget flatPlot = .error (.atom .degenerateRing) ∧
      IsRingFailure flatPlot (.atom .degenerateRing)) ∧
    (Update.document plotTarget flatPlot = .error (.atom .degenerateRing) ∧
      IsRingFailure flatPlot (.atom .degenerateRing)) ∧
    Operation.compile true (Update.guard plotTarget) deletion = .ok .omitted ∧
      ¬Operation.Output.omitted.IsOperator := by
  obtain ⟨hquery, hcreate, hupdate, _, _, _, hoperation⟩ := internal_only_for_rings
  have hq : Where.document ⟨plotTarget, false, ⟨0, 0⟩⟩ flatPlotClause =
      .error (.atom .degenerateRing) := by rfl
  have hc : Create.document plotTarget flatPlot = .error (.atom .degenerateRing) := by rfl
  have hu : Update.document plotTarget flatPlot = .error (.atom .degenerateRing) := by rfl
  have ho : Operation.compile true (Update.guard plotTarget) deletion = .ok .omitted := by rfl
  refine ⟨⟨hq, hquery _ _ _ hq rfl⟩, ⟨hc, hcreate _ _ _ hc rfl⟩, ⟨hu, hupdate _ _ _ hu rfl⟩, ho, ?_⟩
  intro h
  cases ((hoperation _ _).1 _ _ ho).1 h

end RestStore
