import RestStore.Native.Nested
import RestStore.Proofs.Rest.Inside

/-!
# Internal failures while values are stored

A value is refused with a failure of the class `internal` for one reason only: it is tagged as a
polygon and has fewer than three different vertices. `RingsOnly` says so of a computation and of the
parts of the input that it may blame; it goes through every composition.

* `RingsOnly`, `RingsOnly.bind`, `RingsOnly.of_error` — the property and its composition.
* `shape_ringsOnly` — reading the envelopes blames nothing.
* `columnAtom?_ringsOnly` — an atom under a key of its own blames the value itself.
* `verbatim_ringsOnly`, `elements_ringsOnly`, `nested_ringsOnly` — values that are copied or walked
  blame nothing: inside an array or object a polygon is no atom.
* `Polygon.toNative_error` — the one internal failure, and how few vertices the ring has.
-/

set_option autoImplicit false

namespace RestStore

variable {α β : Type}

/-! ## What a failure may blame -/

/-- Every internal failure of a computation is that of a polygon without three different vertices,
whose envelope is one of the parts. -/
def RingsOnly (parts : Rest → Prop) (outcome : Except Failure α) : Prop :=
  ∀ failure, outcome = .error failure → failure.kind = .internal →
    ∃ part polygon, parts part ∧ part.shape = .ok (.polygon polygon) ∧
      polygon.toNative = .error failure

namespace RingsOnly

variable {parts : Rest → Prop} {outcome : Except Failure α}

theorem ok (result : α) : RingsOnly parts (.ok result : Except Failure α) := by
  intro _ he
  cases he

theorem error {failure : Failure} (h : (failure.kind == .internal) = false) :
    RingsOnly parts (.error failure : Except Failure α) := by
  intro _ he hk
  cases he
  exact absurd hk (beq_eq_false_iff_ne.1 h)

theorem map (h : RingsOnly parts outcome) (f : α → β) : RingsOnly parts (outcome.map f) := by
  intro failure he hk
  cases outcome with
  | ok result => cases he
  | error _ =>
    cases he
    exact h _ rfl hk

theorem bind {next : α → Except Failure β} (h : RingsOnly parts outcome)
    (hnext : ∀ result, RingsOnly parts (next result)) : RingsOnly parts (outcome >>= next) := by
  intro failure he hk
  cases outcome with
  | ok result => exact hnext result failure he hk
  | error _ =>
    cases he
    exact h _ rfl hk

/-- A failure that is passed on blames what the failed step blames. -/
theorem of_error {failure : Failure} (h : RingsOnly parts outcome)
    (he : outcome = .error failure) : RingsOnly parts (.error failure : Except Failure β) := by
  intro _ hf hk
  cases hf
  exact h failure he hk

theorem mono {wider : Rest → Prop} (h : RingsOnly parts outcome)
    (hparts : ∀ part, parts part → wider part) : RingsOnly wider outcome := by
  intro failure he hk
  obtain ⟨part, polygon, hp, hs, hf⟩ := h failure he hk
  exact ⟨part, polygon, hparts part hp, hs, hf⟩

end RingsOnly

/-- The failure of a polygon is that its ring is degenerate. -/
theorem Polygon.toNative_error {polygon : Polygon} {failure : Failure}
    (h : polygon.toNative = .error failure) :
    failure = .atom .degenerateRing ∧ (distinct (closed polygon.vertices)).length < 3 := by
  by_cases hfew : (distinct (closed polygon.vertices)).length < 3
  · simp only [toNative, ring, hfew, if_true] at h
    cases h
    exact ⟨rfl, hfew⟩
  · simp only [toNative, ring, hfew, if_false] at h
    cases h

section

variable {parts : Rest → Prop}

theorem enter_ringsOnly (guard : Nesting) : RingsOnly parts guard.enter := by
  unfold Nesting.enter
  split
  · exact .error rfl
  · exact .ok _

/-! ## Envelopes -/

namespace Envelope

theorem text_ringsOnly (kind : String) (members : Fields Rest) (key : String) :
    RingsOnly parts (text kind members key) := by
  unfold text
  split
  · exact .ok _
  · exact .error rfl

theorem number_ringsOnly (kind : String) (members : Fields Rest) (key : String) :
    RingsOnly parts (number kind members key) := by
  unfold number
  split
  · exact .ok _
  · exact .error rfl

end Envelope

theorem ofText_ringsOnly (text : String) : RingsOnly parts (Instant.ofText text) := by
  unfold Instant.ofText
  split
  · exact .ok _
  · exact .error rfl

theorem payload_ringsOnly (bytes : Bytes) : RingsOnly parts bytes.payload := by
  unfold Bytes.payload
  split
  · exact .ok _
  · exact .error rfl

theorem pointer_ringsOnly (members : Fields Rest) :
    RingsOnly parts (Pointer.ofEnvelope members) := by
  unfold Pointer.ofEnvelope
  split
  · exact (Envelope.text_ringsOnly _ _ _).of_error ‹_›
  · split
    · exact (Envelope.text_ringsOnly _ _ _).of_error ‹_›
    · exact .ok _

theorem instant_ringsOnly (members : Fields Rest) :
    RingsOnly parts (Instant.ofEnvelope members) := by
  unfold Instant.ofEnvelope
  split
  · exact (Envelope.text_ringsOnly _ _ _).of_error ‹_›
  · exact ofText_ringsOnly _

theorem bytes_ringsOnly (members : Fields Rest) : RingsOnly parts (Bytes.ofEnvelope members) := by
  unfold Bytes.ofEnvelope
  split
  · exact (Envelope.text_ringsOnly _ _ _).of_error ‹_›
  · exact (payload_ringsOnly _).map _

theorem geoPoint_ringsOnly (members : Fields Rest) :
    RingsOnly parts (GeoPoint.ofEnvelope members) := by
  unfold GeoPoint.ofEnvelope
  split
  · exact (Envelope.number_ringsOnly _ _ _).of_error ‹_›
  · split
    · exact (Envelope.number_ringsOnly _ _ _).of_error ‹_›
    · exact .ok _

/-- Reading the envelope of a polygon does not look at its ring. -/
theorem polygon_ringsOnly (members : Fields Rest) :
    RingsOnly parts (Polygon.ofEnvelope members) := by
  unfold Polygon.ofEnvelope
  split
  · split
    · exact .ok _
    · exact .error rfl
  · exact .error rfl

theorem file_ringsOnly (members : Fields Rest) : RingsOnly parts (File.ofEnvelope members) := by
  have hurl : ∀ url, RingsOnly parts (File.urlOfRest url) := by
    intro url
    unfold File.urlOfRest
    split
    · exact .ok _
    · exact .ok _
    · exact .ok _
    · exact .error rfl
  unfold File.ofEnvelope
  split
  · exact (Envelope.text_ringsOnly _ _ _).of_error ‹_›
  · exact (hurl _).map _

theorem ofEnvelope_ringsOnly (tag : Rest) (members : Fields Rest) :
    RingsOnly parts (Shape.ofEnvelope tag members) := by
  unfold Shape.ofEnvelope
  split
  · exact (pointer_ringsOnly members).map _
  split
  · exact ((Envelope.text_ringsOnly _ _ _).map _).map _
  split
  · exact (instant_ringsOnly members).map _
  split
  · exact (bytes_ringsOnly members).map _
  split
  · exact (geoPoint_ringsOnly members).map _
  split
  · exact (polygon_ringsOnly members).map _
  split
  · exact (file_ringsOnly members).map _
  · exact .error rfl

theorem shape_ringsOnly (value : Rest) : RingsOnly parts value.shape := by
  cases value with
  | null | bool _ | number _ | string _ | array _ => exact .ok _
  | object members =>
    unfold Rest.shape Shape.ofMembers
    dsimp only
    split
    · exact ofEnvelope_ringsOnly _ members
    · split
      · exact .ok _
      · exact .error rfl
      · exact .ok _

/-! ## Atoms and operand lists -/

namespace Native

/-- **An atom under a key of its own** fails internally only as a polygon itself. -/
theorem columnAtom?_ringsOnly (field : Option FieldSchema) (value : Rest) :
    RingsOnly value.Inside (columnAtom? field value) := by
  unfold columnAtom?
  split
  · exact (shape_ringsOnly value).of_error ‹_›
  · rename_i shape hs
    cases shape with
    | polygon polygon =>
      intro failure he _
      refine ⟨value, polygon, .self, hs, ?_⟩
      cases hring : polygon.toNative with
      | ok native => simp [ofColumnShape?, hring, Except.map] at he
      | error other => simpa [ofColumnShape?, hring, Except.map] using he
    | bytes bytes => exact ((payload_ringsOnly bytes).map _).map _
    | null | bool _ | number _ | string _ | pointer _ | relation _ | date _ | geoPoint _ | file _
    | regex _ | array _ | object _ => exact .ok _

theorem nestedAtom?_ringsOnly (value : Rest) : RingsOnly parts (nestedAtom? value) := by
  unfold nestedAtom?
  split
  · exact (shape_ringsOnly value).of_error ‹_›
  · rename_i shape _
    cases shape with
    | bytes bytes => exact ((payload_ringsOnly bytes).map _).map _
    | null | bool _ | number _ | string _ | pointer _ | relation _ | date _ | geoPoint _
    | polygon _ | file _ | regex _ | array _ | object _ => exact .ok _

mutual

theorem verbatim_ringsOnly : ∀ (guard : Nesting) (value : Rest),
    RingsOnly parts (verbatim guard value) := by
  intro guard value
  unfold verbatim
  split
  · exact (enter_ringsOnly guard).of_error ‹_›
  · cases value with
    | null | bool _ | number _ | string _ => exact .ok _
    | array items => exact (verbatimItems_ringsOnly _ items).map _
    | object members => exact (verbatimMembers_ringsOnly _ members).map _

theorem verbatimItems_ringsOnly (guard : Nesting) : ∀ items : List Rest,
    RingsOnly parts (verbatimItems guard items)
  | [] => .ok _
  | item :: rest => by
    unfold verbatimItems
    split
    · exact (verbatim_ringsOnly guard item).of_error ‹_›
    · exact (verbatimItems_ringsOnly guard rest).map _

theorem verbatimMembers_ringsOnly (guard : Nesting) : ∀ members : List (String × Rest),
    RingsOnly parts (verbatimMembers guard members)
  | [] => .ok _
  | (_, value) :: rest => by
    unfold verbatimMembers
    split
    · exact (verbatim_ringsOnly guard value).of_error ‹_›
    · exact (verbatimMembers_ringsOnly guard rest).map _

end

theorem element_ringsOnly (guard : Nesting) (value : Rest) :
    RingsOnly parts (element guard value) := by
  unfold element
  split
  · exact (nestedAtom?_ringsOnly value).of_error ‹_›
  · exact .ok _
  · exact verbatim_ringsOnly guard value

theorem elements_ringsOnly (guard : Nesting) : ∀ items : List Rest,
    RingsOnly parts (elements guard items)
  | [] => .ok _
  | item :: rest => by
    unfold elements
    split
    · exact (element_ringsOnly guard item).of_error ‹_›
    · exact (elements_ringsOnly guard rest).map _

end Native

/-! ## Operations and nested values -/

namespace Operation

theorem ofMembers_ringsOnly (members : Fields Rest) : RingsOnly parts (ofMembers members) := by
  have hfault : ∀ fault, ((Failure.operation fault).kind == .internal) = false := by
    intro fault
    cases fault <;> rfl
  have hitems : ∀ fault, RingsOnly parts (items members fault) := by
    intro fault
    unfold items
    split
    · exact .ok _
    · exact .error (hfault fault)
  unfold ofMembers
  extract_lets name
  split
  · exact .ok _
  split
  · split
    · exact .ok _
    · exact .error (hfault _)
  split
  · exact .ok _
  split
  · exact (hitems _).map _
  split
  · exact (hitems _).map _
  split
  · exact (hitems _).map _
  · exact .error (hfault _)

theorem flatten_ringsOnly (guard : Nesting) (operation : Operation) :
    RingsOnly parts (operation.flatten guard) := by
  cases operation with
  | delete | increment _ => exact .ok _
  | setOnInsert value => exact (Native.verbatim_ringsOnly guard value).map _
  | add items | addUnique items | remove items =>
    exact (Native.elements_ringsOnly guard items).map _

theorem update_ringsOnly (guard : Nesting) (operation : Operation) :
    RingsOnly parts (operation.update guard) := by
  cases operation with
  | delete | increment _ => exact .ok _
  | setOnInsert value => exact (Native.verbatim_ringsOnly guard value).map _
  | add items | addUnique items | remove items =>
    exact (Native.elements_ringsOnly guard items).map _

end Operation

namespace Native

theorem flattened_ringsOnly (guard : Nesting) (members : Fields Rest) :
    RingsOnly parts (flattened guard members) := by
  unfold flattened
  split
  · exact (Operation.ofMembers_ringsOnly members).of_error ‹_›
  · exact Operation.flatten_ringsOnly guard _

mutual

/-- **A value inside an array or object** never fails internally. -/
theorem nested_ringsOnly : ∀ (guard : Nesting) (value : Rest),
    RingsOnly parts (nested guard value) := by
  intro guard value
  unfold nested
  split
  · exact (enter_ringsOnly guard).of_error ‹_›
  · cases value with
    | null | bool _ | number _ | string _ => exact .ok _
    | array items => exact (nestedItems_ringsOnly _ items).map _
    | object members =>
      dsimp only
      split
      · exact (nestedAtom?_ringsOnly _).of_error ‹_›
      · exact .ok _
      · split
        · exact flattened_ringsOnly _ members
        · split
          · exact (nestedMembers_ringsOnly _ members).map _
          · exact .error rfl

theorem nestedItems_ringsOnly (guard : Nesting) : ∀ items : List Rest,
    RingsOnly parts (nestedItems guard items)
  | [] => .ok _
  | item :: rest => by
    unfold nestedItems
    split
    · exact (nested_ringsOnly guard item).of_error ‹_›
    · exact (nestedItems_ringsOnly guard rest).map _

theorem nestedMembers_ringsOnly (guard : Nesting) : ∀ members : List (String × Rest),
    RingsOnly parts (nestedMembers guard members)
  | [] => .ok _
  | (_, value) :: rest => by
    unfold nestedMembers
    split
    · exact (nested_ringsOnly guard value).of_error ‹_›
    · exact nestedMembers_ringsOnly guard rest
    · exact (nestedMembers_ringsOnly guard rest).map _

end

end Native

end

end RestStore
