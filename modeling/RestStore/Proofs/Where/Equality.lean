import RestStore.Proofs.Native.Given
import RestStore.Proofs.Rest.Shape
import RestStore.Proofs.Where.Clauses
import RestStore.Proofs.Write.Columns

/-!
# Where queries find what was created

An object and a query for it name a field alike, but each has its own way from the name to a column:
creating looks at the value, a query only at the schema. `query_finds_created` says that both hold
one native value for an atom, and in which cases the query looks into another column than the one
that creating filled: `MissesColumn`.

* `EqualityKey` — the names that the two ways are meant to agree on.
* `columnAtom?_of_atom`, `compile?_of_atom` — an atom is stored as one, and is no constraint.
* `created_atom`, `queried_atom` — the two ways of an atom.
* `plainColumn_eq_iff` — when an ordinary field has one column on both.
-/

set_option autoImplicit false

namespace RestStore

/-! ## Atoms -/

/-- The shapes of values that are atoms under a key of their own. -/
def Shape.IsAtom : Shape → Prop
  | null | bool _ | number _ | string _ | pointer _ | date _ | bytes _ | geoPoint _ | polygon _
  | file _ => True
  | relation _ | regex _ | array _ | object _ => False

section

variable {value : Rest} {shape : Shape}

theorem columnAtom?_of_atom {field : Option FieldSchema} {result : Option Native}
    (hs : value.shape = .ok shape) (ha : shape.IsAtom)
    (h : Native.columnAtom? field value = .ok result) : ∃ native, result = some native := by
  unfold Native.columnAtom? at h
  rw [hs] at h
  cases shape with
  | bytes bytes =>
    obtain ⟨native, _, rfl⟩ := Outcome.map_eq_ok.1 h
    exact ⟨native, rfl⟩
  | polygon polygon =>
    obtain ⟨native, _, rfl⟩ := Outcome.map_eq_ok.1 h
    exact ⟨native, rfl⟩
  | null | bool _ | number _ | string _ | pointer _ | date _ | geoPoint _ | file _ =>
    cases h
    exact ⟨_, rfl⟩
  | relation _ | regex _ | array _ | object _ => exact ha.elim

/-- An object that is an atom has a tag. -/
theorem exists_tag_of_atom {members : Fields Rest} (hs : (Rest.object members).shape = .ok shape)
    (ha : shape.IsAtom) : ∃ tag, Fields.get? members typeKey = some tag ∧
      Shape.ofEnvelope tag members = .ok shape := by
  rcases shape_object_cases hs with h | ⟨_, rfl⟩ | rfl
  · exact h
  · exact ha.elim
  · exact ha.elim

theorem hasTag_relation_of_atom (hs : value.shape = .ok shape) (ha : shape.IsAtom) :
    value.hasTag Relation.kind = false := by
  rw [Bool.eq_false_iff]
  intro htag
  obtain ⟨members, rfl, hget⟩ := hasTag_iff.1 htag
  rw [shape_tagged hget, Shape.ofEnvelope_relation] at hs
  obtain ⟨relation, _, rfl⟩ := Outcome.map_eq_ok.1 hs
  exact ha

/-- An atom is compared with as it is: its tag is no operator. -/
theorem compile?_of_atom (scope : Constraint.Scope) (hs : value.shape = .ok shape)
    (ha : shape.IsAtom) : Constraint.compile? scope value = .ok none := by
  cases value with
  | object members =>
    obtain ⟨tag, hget, _⟩ := exists_tag_of_atom hs ha
    have htag : (members.all fun member => Constraint.isOperatorKey member.1) = false := by
      rw [Bool.eq_false_iff]
      intro hall
      have hkey : Constraint.isOperatorKey typeKey = true :=
        List.all_eq_true.1 hall _ (Fields.mem_of_get? hget)
      exact absurd hkey (by decide)
    simp only [Constraint.compile?, htag, Bool.not_false, if_true]
  | null | bool _ | number _ | string _ | array _ => rfl

end

namespace Where

/-! ## Names of fields -/

/-- A name for which creating and querying are meant to agree: a client's own field, no path, and
neither an array nor a relation by its declaration. -/
structure EqualityKey (schema : Schema) (key : String) : Prop where
  not_path : Column.isPath key = false
  not_internal : hasStart "_" key = false
  not_id : key ≠ objectIdKey
  not_acl : key ≠ aclKey
  not_times_used : key ≠ "timesUsed"
  not_array : schema.fieldIs key .array = false
  not_relation : schema.fieldIs key .relation = false

/-- The names whose column depends neither on the schema nor on the value. -/
def fixedKeys : List String := ["createdAt", "updatedAt", "lastUsed", "sessionToken"]

/-- A query looks into another column than the one that creating fills. -/
inductive MissesColumn (schema : Schema) (key : String) (value : Rest) : Prop
  /-- What stands in no reference keeps the name of a pointer field, and so does an expiry. -/
  | kept : schema.fieldIs key .pointer = true → key ∉ fixedKeys →
      (key = "expiresAt" ∨ value.isTruthy = false ∨ value.hasTag Bytes.kind = true) →
      MissesColumn schema key value
  /-- A reference goes to a column of pointers, whatever the field is declared as. -/
  | moved : schema.fieldIs key .pointer = false → key ∉ fixedKeys → key ≠ "expiresAt" →
      value.hasTag Pointer.kind = true → MissesColumn schema key value

/-- The instants among a client's own fields. -/
theorem isTimeKey_iff {key : String} (hs : hasStart "_" key = false) :
    isTimeKey key = true ↔ key ∈ timeKeys := by
  constructor
  · intro h
    rcases Bool.or_eq_true_iff.1 h with hmem | hrole
    · have hmem : key ∈ internalTimes := by simpa using hmem
      simp only [internalTimes, List.mem_cons, List.not_mem_nil, or_false] at hmem
      rcases hmem with rfl | rfl | rfl | rfl | rfl
      · decide
      all_goals exact absurd hs (by decide)
    · obtain ⟨column, hc, hrole⟩ := (Option.any_eq_true _ _).1 hrole
      rcases reserved?_cases hc with
        ⟨_, rfl⟩ | ⟨rfl, _⟩ | ⟨rfl, _⟩ | ⟨_, rfl⟩ | ⟨rfl, _⟩ | ⟨_, rfl⟩
      · cases hrole
      · decide
      · decide
      · cases hrole
      · decide
      · cases hrole
  · intro h
    have hall : ∀ key ∈ timeKeys, isTimeKey key = true := by decide
    exact hall key h

section

variable {scope : Scope} {key : String} {value : Rest} {shape : Shape}

/-- Whether a field is an instant and its value a text that spells one. -/
def Spells (key : String) (value : Rest) (instant : Instant) : Prop :=
  key ∈ timeKeys ∧ ∃ text, value = .string text ∧ Instant.ofText text = .ok instant

theorem Spells.unique {first second : Instant} (hf : Spells key value first)
    (hs : Spells key value second) : first = second := by
  obtain ⟨_, text, rfl, hf⟩ := hf
  obtain ⟨_, _, he, hs⟩ := hs
  cases he
  cases hf.symm.trans hs
  rfl

theorem timeText?_iff (hs : hasStart "_" key = false) {native : Native} :
    timeText? key value = some native ↔
      ∃ instant, Spells key value instant ∧ native = instant.toNative := by
  have htext : ∀ text instant, Instant.ofText text = .ok instant ↔
      Iso.parse? text = some instant := by
    intro text instant
    unfold Instant.ofText
    cases Iso.parse? text <;> simp
  unfold Spells
  rw [← isTimeKey_iff hs]
  cases value with
  | string text =>
    cases ht : isTimeKey key with
    | true =>
      simp only [timeText?, ht, if_true, Option.map_eq_some_iff, true_and]
      constructor
      · rintro ⟨instant, hp, rfl⟩
        exact ⟨instant, ⟨text, rfl, (htext _ _).2 hp⟩, rfl⟩
      · rintro ⟨instant, ⟨_, he, hi⟩, rfl⟩
        cases he
        exact ⟨instant, (htext _ _).1 hi, rfl⟩
    | false => simp [timeText?, ht]
  | null | bool _ | number _ | array _ | object _ => simp [timeText?]

/-- The native value of an atom: of a session token the value as given, of a text that spells an
instant the instant, and otherwise the form that is stored under a key of its own. -/
inductive AtomValue (target : Target) (key : String) (value : Rest) : Native → Prop
  | session : key = "sessionToken" → AtomValue target key value (Native.given value)
  | text {instant : Instant} : Spells key value instant →
      AtomValue target key value instant.toNative
  | atom {native : Native} : key ≠ "sessionToken" → (∀ instant, ¬Spells key value instant) →
      Native.columnAtom? (target.schema.field? key) value = .ok (some native) →
        AtomValue target key value native

theorem AtomValue.unique {target : Target} {first second : Native}
    (hf : AtomValue target key value first) (hs : AtomValue target key value second) :
    first = second := by
  have hsession : ∀ {instant}, Spells key value instant → key ≠ "sessionToken" := by
    rintro _ ⟨hmem, _⟩ rfl
    exact absurd hmem (by decide)
  cases hf with
  | session hk =>
    cases hs with
    | session _ => rfl
    | text ht => exact absurd hk (hsession ht)
    | atom hne _ _ => exact absurd hk hne
  | text ht =>
    cases hs with
    | session hk => exact absurd hk (hsession ht)
    | text ht' => rw [ht.unique ht']
    | atom _ hn _ => exact absurd ht (hn _)
  | atom hne hn ha =>
    cases hs with
    | session hk => exact absurd hk hne
    | text ht => exact absurd ht (hn _)
    | atom _ _ ha' =>
      cases ha.symm.trans ha'
      rfl

/-! ## The two ways of an atom -/

/-- The column that creating an atom fills. -/
def createdColumn (target : Target) (key : String) (value : Rest) : String :=
  if key = "sessionToken" then "_session_token"
  else (Create.timeColumn? key).getD (Create.plainColumn target key value)

theorem atomValue_of_timeValue {target : Target} {native : Native} (ht : key ∈ timeKeys)
    (h : Create.timeValue target key value = .ok native) :
    AtomValue target key value native := by
  have hsession : key ≠ "sessionToken" := by
    rintro rfl
    exact absurd ht (by decide)
  unfold Create.timeValue at h
  split at h
  · rename_i text
    obtain ⟨instant, hi, rfl⟩ := Outcome.map_eq_ok.1 h
    exact .text ⟨ht, text, rfl, hi⟩
  · rename_i hnot
    split at h
    · cases h
    · rename_i atom hatom
      cases h
      refine .atom hsession ?_ hatom
      rintro _ ⟨_, text, he, _⟩
      exact hnot text he
    · cases h

theorem atomValue_of_plainValue {target : Target} {result : Option Native}
    (hsession : key ≠ "sessionToken") (ht : key ∉ timeKeys) (hs : value.shape = .ok shape)
    (ha : shape.IsAtom) (h : Create.plainValue? target key value = .ok result) :
    ∃ native, result = some native ∧ AtomValue target key value native := by
  unfold Create.plainValue? at h
  split at h
  · cases h
  · rename_i atom hatom
    cases h
    exact ⟨atom, rfl, .atom hsession (fun _ hspells => ht hspells.1) hatom⟩
  · rename_i hatom
    obtain ⟨_, hnone⟩ := columnAtom?_of_atom hs ha hatom
    cases hnone

/-- What creating an object with one atom stores. -/
theorem created_atom {target : Target} {created : Document} (hk : EqualityKey target.schema key)
    (hs : value.shape = .ok shape) (ha : shape.IsAtom)
    (h : Create.document target [(key, value)] = .ok created) :
    ∃ native, created = [(createdColumn target key value, native)] ∧
      AtomValue target key value native := by
  have hp : Create.isPermissionKey key = false := by
    rw [Bool.eq_false_iff]
    exact fun hp => hk.not_acl (Create.eq_aclKey hk.not_internal hp)
  have hrel : target.isRelation key value = false := by
    unfold Target.isRelation
    rw [hasTag_relation_of_atom hs ha, hk.not_relation]
    rfl
  rw [Create.document_single hp, hrel] at h
  obtain ⟨column, hc, rfl⟩ := Outcome.map_eq_ok.1 h
  unfold Create.column? at hc
  unfold createdColumn
  rcases RestStore.verbatimColumn?_cases hk.not_internal with ⟨hid, _⟩ | ⟨rfl, hv⟩ | ⟨_, hne, hv⟩
  · exact absurd hid hk.not_id
  · rw [hv] at hc
    obtain ⟨native, hn, rfl⟩ := Outcome.map_eq_ok.1 hc
    rw [Native.verbatim_eq_given hn]
    exact ⟨_, rfl, .session rfl⟩
  · rw [hv] at hc
    rw [if_neg hne]
    cases ht : Create.timeColumn? key with
    | some column =>
      rw [ht] at hc
      obtain ⟨native, hn, rfl⟩ := Outcome.map_eq_ok.1 hc
      refine ⟨native, rfl, atomValue_of_timeValue ?_ hn⟩
      by_contra hnot
      rw [timeColumn?_eq_none hk.not_internal hnot] at ht
      cases ht
    | none =>
      have htime : key ∉ timeKeys := by
        have hall : ∀ key ∈ timeKeys, Create.timeColumn? key ≠ none := by decide
        exact fun hmem => hall key hmem ht
      rw [ht, authIdProvider?_eq_none hk.not_path] at hc
      obtain ⟨result, hn, rfl⟩ := Outcome.map_eq_ok.1 hc
      obtain ⟨native, rfl, hnative⟩ := atomValue_of_plainValue hne htime hs ha hn
      exact ⟨native, rfl, hnative⟩

/-- What a query for one atom compares with. -/
theorem queried_atom {query : Document} (hk : EqualityKey scope.target.schema key)
    (hs : value.shape = .ok shape) (ha : shape.IsAtom)
    (h : document scope [(key, value)] = .ok query) :
    ∃ native, query = [(Column.forQuery scope.target.schema key, native)] ∧
      AtomValue scope.target key value native := by
  obtain ⟨own, hown, rfl⟩ := document_single h
  unfold entry at hown
  split at hown
  · split at hown
    · cases hs
      exact ha.elim
    · cases hown
  unfold fieldEntry at hown
  rw [if_neg hk.not_id] at hown
  rcases verbatimColumn?_cases hk.not_internal with
    ⟨rfl, hv⟩ | ⟨ht, _⟩ | ⟨provider, rfl, _⟩ | ⟨hsession, _, hv⟩
  · rw [hv] at hown
    obtain ⟨native, hn, rfl⟩ := Outcome.map_eq_ok.1 hown
    rw [Native.verbatim_eq_given hn]
    exact ⟨_, rfl, .session rfl⟩
  · exact absurd ht hk.not_times_used
  · exact absurd hk.not_path (by simp [Column.isPath])
  · rw [hv] at hown
    unfold plainEntry at hown
    cases ht : timeText? key value with
    | some native =>
      rw [ht] at hown
      cases hown
      obtain ⟨instant, hspells, rfl⟩ := (timeText?_iff hk.not_internal).1 ht
      exact ⟨_, rfl, .text hspells⟩
    | none =>
      have hspells : ∀ instant, ¬Spells key value instant := by
        intro instant hspells
        rw [(timeText?_iff hk.not_internal).2 ⟨instant, hspells, rfl⟩] at ht
        cases ht
      rw [ht, compile?_of_atom _ hs ha] at hown
      simp only [valueEntry, hk.not_array, hk.not_path, Bool.false_and, Bool.false_eq_true,
        if_false] at hown
      split at hown
      · cases hown
      · rename_i native hatom
        cases hown
        exact ⟨native, rfl, .atom hsession hspells hatom⟩
      · cases hown

/-! ## The two columns -/

theorem reserved?_ordinary {key : String} (hid : key ≠ objectIdKey) (hfixed : key ∉ fixedKeys)
    (ht : key ≠ "timesUsed") : Column.reserved? key = none := by
  rw [Option.eq_none_iff_forall_ne_some]
  intro column hc
  rcases reserved?_cases hc with ⟨e, _⟩ | ⟨rfl, _⟩ | ⟨rfl, _⟩ | ⟨rfl, _⟩ | ⟨rfl, _⟩ | ⟨e, _⟩
  · exact hid e
  · exact hfixed (by decide)
  · exact hfixed (by decide)
  · exact hfixed (by decide)
  · exact hfixed (by decide)
  · exact ht e

theorem pointerColumn_ne (key : String) : pointerStart ++ key ≠ key := by
  intro h
  have hlength := congrArg String.length h
  simp [pointerStart] at hlength

/-- Creating and querying an ordinary field agree on its column unless the query misses it. -/
theorem plainColumn_eq_iff {target : Target} (hfixed : key ∉ fixedKeys)
    (hexpiry : key ≠ "expiresAt") :
    Create.plainColumn target key value =
        (if target.schema.fieldIs key .pointer then pointerStart ++ key else key) ↔
      ¬MissesColumn target.schema key value := by
  unfold Create.plainColumn Create.writesPointer
  cases hp : target.schema.fieldIs key .pointer with
  | true =>
    have hmisses : MissesColumn target.schema key value ↔
        value.isTruthy = false ∨ value.hasTag Bytes.kind = true := by
      constructor
      · rintro (⟨_, _, he | h⟩ | ⟨hnot, _, _, _⟩)
        · exact absurd he hexpiry
        · exact h
        · rw [hp] at hnot
          cases hnot
      · exact fun h => .kept hp hfixed (.inr h)
    rw [hmisses]
    cases value.isTruthy <;> cases value.hasTag Bytes.kind <;>
      simp [(pointerColumn_ne key).symm]
  | false =>
    have hmisses : MissesColumn target.schema key value ↔ value.hasTag Pointer.kind = true := by
      constructor
      · rintro (⟨hnot, _, _⟩ | ⟨_, _, _, h⟩)
        · rw [hp] at hnot
          cases hnot
        · exact h
      · exact .moved hp hfixed hexpiry
    rw [hmisses]
    cases ht : value.hasTag Pointer.kind with
    | true =>
      have hbytes := hasTag_ne ht (show Pointer.kind ≠ Bytes.kind by decide)
      simp [isTruthy_of_hasTag ht, hbytes, pointerStart]
    | false => simp

/-- An expiry is created under its own name, and looked for there unless it is a pointer. -/
theorem expiryColumn_eq_iff {schema : Schema} :
    "expiresAt" = (if schema.fieldIs "expiresAt" .pointer then pointerStart ++ "expiresAt"
        else "expiresAt") ↔ ¬MissesColumn schema "expiresAt" value := by
  cases hp : schema.fieldIs "expiresAt" .pointer with
  | true =>
    refine iff_of_false ?_ (not_not.2 (.kept hp (by decide) (.inl rfl)))
    exact (pointerColumn_ne "expiresAt").symm
  | false =>
    refine iff_of_true rfl ?_
    rintro (⟨h, _, _⟩ | ⟨_, _, h, _⟩)
    · rw [hp] at h
      cases h
    · exact h rfl

/-- The query looks where creating stored, unless it misses the column. -/
theorem createdColumn_eq_iff {target : Target} (hk : EqualityKey target.schema key) :
    createdColumn target key value = Column.forQuery target.schema key ↔
      ¬MissesColumn target.schema key value := by
  unfold createdColumn
  by_cases hfixed : key ∈ fixedKeys
  · have hnot : ¬MissesColumn target.schema key value := by
      rintro (⟨_, h, _⟩ | ⟨_, h, _, _⟩) <;> exact h hfixed
    refine iff_of_true ?_ hnot
    simp only [fixedKeys, List.mem_cons, List.not_mem_nil, or_false] at hfixed
    rcases hfixed with rfl | rfl | rfl | rfl <;> rfl
  have hsession : key ≠ "sessionToken" := by
    rintro rfl
    exact hfixed (by decide)
  unfold Column.forQuery
  rw [if_neg hsession, reserved?_ordinary hk.not_id hfixed hk.not_times_used]
  dsimp only
  by_cases hexpiry : key = "expiresAt"
  · subst hexpiry
    exact expiryColumn_eq_iff
  · have htime : key ∉ timeKeys := by
      simp only [fixedKeys, timeKeys, List.mem_cons, List.not_mem_nil, or_false, not_or] at *
      exact ⟨hfixed.1, hfixed.2.1, hfixed.2.2.1, hexpiry⟩
    rw [timeColumn?_eq_none hk.not_internal htime, Option.getD_none]
    exact plainColumn_eq_iff hfixed hexpiry

/-- **A query for an atom looks for the native value that creating it stores**, and looks for it
where it was stored, unless it misses the column. -/
theorem query_finds_created {created query : Document} (hk : EqualityKey scope.target.schema key)
    (hs : value.shape = .ok shape) (ha : shape.IsAtom)
    (hc : Create.document scope.target [(key, value)] = .ok created)
    (hq : document scope [(key, value)] = .ok query) :
    ∃ stored column native, created = [(stored, native)] ∧ query = [(column, native)] ∧
      (stored = column ↔ ¬MissesColumn scope.target.schema key value) := by
  obtain ⟨native, rfl, hnative⟩ := created_atom hk hs ha hc
  obtain ⟨other, rfl, hother⟩ := queried_atom hk hs ha hq
  rw [hnative.unique hother]
  exact ⟨_, _, other, rfl, rfl, createdColumn_eq_iff hk⟩

end

/-- A reference to a user. -/
def userReference : Rest :=
  .tagged Pointer.kind [("className", .string "_User"), ("objectId", .string "u1")]

theorem query_finds_created_author :
    Create.document postScope.target [("author", userReference)] =
        .ok [("_p_author", .string "_User$u1")] ∧
      document postScope [("author", userReference)] = .ok [("_p_author", .string "_User$u1")] ∧
      ∃ stored column native, [("_p_author", Native.string "_User$u1")] = [(stored, native)] ∧
        [("_p_author", Native.string "_User$u1")] = [(column, native)] ∧
        (stored = column ↔ ¬MissesColumn postScope.target.schema "author" userReference) := by
  have hkey : EqualityKey postScope.target.schema "author" :=
    ⟨by decide, by decide, by decide, by decide, by decide, by decide, by decide⟩
  have hshape : userReference.shape = .ok (.pointer ⟨"_User", "u1"⟩) := rfl
  exact ⟨rfl, rfl, query_finds_created hkey hshape trivial rfl rfl⟩

/-- A missing author is stored under the name of the field and looked for in the column of
pointers; a reference that no declaration announces goes the other way round. -/
theorem query_misses_created :
    (EqualityKey postScope.target.schema "author" ∧
      Create.document postScope.target [("author", .null)] = .ok [("author", .null)] ∧
      document postScope [("author", .null)] = .ok [("_p_author", .null)] ∧
      Fields.get? [("author", Native.null)] "_p_author" = none) ∧
    EqualityKey postScope.target.schema "editor" ∧
      Create.document postScope.target [("editor", userReference)] =
        .ok [("_p_editor", .string "_User$u1")] ∧
      document postScope [("editor", userReference)] = .ok [("editor", .string "_User$u1")] ∧
      Fields.get? [("_p_editor", Native.string "_User$u1")] "editor" = none := by
  refine ⟨⟨⟨?_, ?_, ?_, ?_, ?_, ?_, ?_⟩, rfl, rfl, by decide⟩,
    ⟨?_, ?_, ?_, ?_, ?_, ?_, ?_⟩, rfl, rfl, by decide⟩ <;> decide

end Where

end RestStore
