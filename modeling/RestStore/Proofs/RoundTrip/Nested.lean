import RestStore.Proofs.Bytes
import RestStore.Proofs.Native.Given
import RestStore.Proofs.Nesting
import RestStore.Proofs.Outcome
import RestStore.Proofs.RoundTrip.Plain
import RestStore.Rest.OfNative

/-!
# Nested values both ways

A plain value that is stored inside an array or object reads back as it was sent, up to the order
of members: `nested_plain`.

* `ReadsBack` — what a stored value reads back as, where there is room for its levels.
* `readsBack_pointer`, `readsBack_date`, `readsBack_bytes` — the atoms.
* `Plain.object_cases` — a plain object is such an atom, or kept as it is.
-/

set_option autoImplicit false

namespace RestStore

open Rest (Reordered)

/-- A stored value reads back as a value, where there is room for its levels. -/
def ReadsBack (levels : Nat) (native : Native) (value : Rest) : Prop :=
  ∀ guard : Nesting, guard.HasRoom levels →
    ∃ back, Rest.ofNative guard native = .ok back ∧ Rest.Alike back value

theorem ReadsBack.mono {levels more : Nat} {native : Native} {value : Rest}
    (h : ReadsBack levels native value) (hle : levels ≤ more) : ReadsBack more native value :=
  fun guard hroom => h guard (hroom.mono hle)

/-! ## Scalars -/

theorem readsBack_null (levels : Nat) : ReadsBack (levels + 1) .null .null := by
  intro guard hroom
  obtain ⟨inner, hi, _⟩ := hroom.enter
  exact ⟨.null, by rw [Rest.ofNative, hi], .null⟩

theorem readsBack_bool (levels : Nat) (flag : Bool) :
    ReadsBack (levels + 1) (.bool flag) (.bool flag) := by
  intro guard hroom
  obtain ⟨inner, hi, _⟩ := hroom.enter
  exact ⟨.bool flag, by rw [Rest.ofNative, hi], .bool flag⟩

theorem readsBack_string (levels : Nat) (text : String) :
    ReadsBack (levels + 1) (.string text) (.string text) := by
  intro guard hroom
  obtain ⟨inner, hi, _⟩ := hroom.enter
  exact ⟨.string text, by rw [Rest.ofNative, hi], .string text⟩

theorem readsBack_number (levels : Nat) {number : Number} (h : number.Storable) :
    ReadsBack (levels + 1) (.ofNumber number) (.number number) := by
  intro guard hroom
  obtain ⟨inner, hi, _⟩ := hroom.enter
  have hback := Native.number?_ofNumber h
  refine ⟨.number number, ?_, .number number⟩
  cases hn : Native.ofNumber number <;> rw [hn] at hback <;> first
    | (rw [Rest.ofNative, hi]; dsimp only; rw [hback]; rfl)
    | cases hback

/-! ## Atoms that are objects -/

theorem Rest.Reordered.alike_tagged {value : Rest} {kind : String} {payload : Fields Rest}
    (h : Reordered value (.tagged kind payload)) (hn : (typeKey :: Fields.keys payload).Nodup) :
    Rest.Alike (.tagged kind payload) value := by
  have hobject : Reordered value (.object ((typeKey, .string kind) :: payload)) := h
  exact hobject.alike hn

/-- A stored instant is read as the envelope of its canonical text. -/
theorem Rest.ofNative_date {guard inner : Nesting} (hi : guard.enter = .ok inner)
    (moment : IsoMoment) : Rest.ofNative guard moment.instant.toNative = .ok moment.toEnvelope := by
  rw [Instant.toNative, Rest.ofNative, hi]
  dsimp only
  unfold Instant.toEnvelope IsoMoment.toEnvelope
  rw [moment.render_ofStored]

theorem readsBack_date (levels : Nat) {value : Rest} {moment : IsoMoment}
    (h : Reordered value moment.toEnvelope) :
    ReadsBack (levels + 1) moment.instant.toNative value := by
  intro guard hroom
  obtain ⟨inner, hi, _⟩ := hroom.enter
  exact ⟨moment.toEnvelope, Rest.ofNative_date hi moment, h.alike_tagged (by simp [typeKey])⟩

theorem readsBack_bytes (levels : Nat) {value : Rest} {bytes : Bytes} {payload : List UInt8}
    (hp : bytes.payload = .ok payload) (h : Reordered value bytes.toEnvelope) :
    ReadsBack (levels + 1) (.binary payload 0) value := by
  intro guard hroom
  obtain ⟨inner, hi, _⟩ := hroom.enter
  refine ⟨bytes.toEnvelope, ?_, h.alike_tagged (by simp [typeKey])⟩
  rw [Rest.ofNative, hi]
  dsimp only
  rw [← Bytes.payload_iff.1 hp]

theorem readsBack_pointer (levels : Nat) {value : Rest} {pointer : Pointer}
    (h : Reordered value pointer.toEnvelope) :
    ReadsBack (levels + 2) pointer.nested value := by
  intro guard hroom
  obtain ⟨inner, hi, hroom⟩ := hroom.enter
  obtain ⟨deeper, hd, _⟩ := hroom.enter
  refine ⟨pointer.toEnvelope, ?_, h.alike_tagged (by simp [typeKey])⟩
  rw [Pointer.nested, Rest.ofNative, hi]
  simp [Rest.ofColumns, Rest.storedIso?, Instant.ofNative?, Rest.ofNative, hd, Except.map,
    Pointer.toEnvelope, Rest.tagged]

/-! ## Objects -/

/-- An object that is stored as an atom and reads back. -/
def IsAtom (members : Fields Rest) : Prop :=
  ∃ native, Native.nestedAtom? (.object members) = .ok (some native) ∧
    ReadsBack (Rest.object members).height native (.object members) ∧
    ∀ text, native ≠ .string text

/-- **A plain object is an atom, or kept as it is.** -/
theorem Plain.object_cases {members : Fields Rest} (h : Plain (.object members)) :
    IsAtom members ∨ KeptObject members := by
  have kept : (∃ others, Rest.object members = .object others ∧ KeptObject others) →
      KeptObject members := by
    rintro ⟨others, he, hk⟩
    cases he
    exact hk
  cases h with
  | object hclean htag hop hplain => exact .inr (keptObject_of_clean hclean htag hop hplain)
  | pointer pointer hr =>
    refine .inl ⟨pointer.nested, nestedAtom?_of_shape (shape_pointer hr), ?_, fun _ h => nomatch h⟩
    exact (readsBack_pointer 0 hr).mono (Rest.two_le_height_of_shape (shape_pointer hr) trivial)
  | date moment hr =>
    refine .inl ⟨moment.instant.toNative, nestedAtom?_of_shape (shape_date hr), ?_,
      fun _ h => nomatch h⟩
    exact (readsBack_date 0 hr).mono (Rest.height_pos _)
  | @bytes _ bytes payload hp hr =>
    refine .inl ⟨.binary payload 0, ?_, ?_, fun _ h => nomatch h⟩
    · rw [nestedAtom?_of_shape (shape_bytes hp hr)]
      simp [Native.ofNestedShape?, Bytes.toNative, hp, Except.map]
    · exact (readsBack_bytes 0 hp hr).mono (Rest.height_pos _)
  | geoPoint hs hr => exact .inr (kept (keptObject_of_geoPoint hs hr))
  | polygon hs hr => exact .inr (kept (keptObject_of_polygon hs hr))
  | file file hr => exact .inr (kept (keptObject_of_file hr))
  | relation relation hr => exact .inr (kept (keptObject_of_relation hr))

/-- A kept object is walked. -/
theorem KeptObject.isWalked {members : Fields Rest} (h : KeptObject members) :
    Native.IsWalked members where
  no_atom := h.not_atom
  no_operation := Fields.contains_eq_false_iff.2 h.not_operation
  clean := h.clean

/-- A document is a stored date only if its object was tagged as one. -/
theorem isStoredDate_eq_false {columns : Document} {members : Fields Rest}
    (htext : ∀ text, Fields.get? columns typeKey = some (.string text) →
      Fields.get? members typeKey = some (.string text))
    (hdate : Fields.get? members typeKey ≠ some (.string Instant.kind)) :
    Rest.isStoredDate columns = false := by
  unfold Rest.isStoredDate
  rw [beq_eq_false_iff_ne]
  intro h
  obtain ⟨native, hget, hn⟩ := Option.bind_eq_some_iff.1 h
  cases native <;> cases hn
  exact hdate (htext _ hget)

mutual

/-- **A plain value inside an array or object reads back.** -/
theorem nested_plain : ∀ {value : Rest} {guard : Nesting}, Plain value →
    guard.HasRoom value.height →
      ∃ native, Native.nested guard value = .ok (some native) ∧
        ReadsBack value.height native value ∧ ∀ text, native = .string text → value = .string text
  | .null, guard, _, hroom => by
    obtain ⟨inner, hi, _⟩ := hroom.enter
    exact ⟨.null, by rw [Native.nested, hi], readsBack_null 0, fun _ h => nomatch h⟩
  | .bool flag, guard, _, hroom => by
    obtain ⟨inner, hi, _⟩ := hroom.enter
    exact ⟨.bool flag, by rw [Native.nested, hi], readsBack_bool 0 flag, fun _ h => nomatch h⟩
  | .string text, guard, _, hroom => by
    obtain ⟨inner, hi, _⟩ := hroom.enter
    refine ⟨.string text, by rw [Native.nested, hi], readsBack_string 0 text, fun _ h => ?_⟩
    cases h
    rfl
  | .number number, guard, h, hroom => by
    obtain ⟨inner, hi, _⟩ := hroom.enter
    exact ⟨.ofNumber number, by rw [Native.nested, hi], readsBack_number 0 h.storable,
      fun text h => absurd h (Native.ofNumber_ne_string number text)⟩
  | .array items, guard, h, hroom => by
    obtain ⟨inner, hi, hin⟩ := hroom.enter
    obtain ⟨natives, hn, hback⟩ := nestedItems_plain h.items hin
    refine ⟨.array natives, by rw [Native.nested, hi]; dsimp only; rw [hn]; rfl, ?_,
      fun _ h => nomatch h⟩
    intro guard' hroom'
    obtain ⟨inner', hi', hin'⟩ := hroom'.enter
    obtain ⟨backs, hb, halike⟩ := hback inner' hin'
    exact ⟨.array backs, by rw [Rest.ofNative, hi']; dsimp only; rw [hb]; rfl, .array halike⟩
  | .object members, guard, h, hroom => by
    obtain ⟨inner, hi, hin⟩ := hroom.enter
    rcases h.object_cases with ⟨native, hatom, hback, htext⟩ | hkept
    · refine ⟨native, Native.nested_atom hi hatom, hback, fun text h => ?_⟩
      exact absurd h (htext text)
    · obtain ⟨columns, hc, htext, hback⟩ := nestedMembers_plain hkept.plain hin
      refine ⟨.document columns, Native.nested_walked hi hkept.isWalked hc, ?_,
        fun _ h => nomatch h⟩
      intro guard' hroom'
      obtain ⟨inner', hi', hin'⟩ := hroom'.enter
      obtain ⟨backs, hb, halike⟩ := hback inner' hin'
      refine ⟨.object backs, ?_, Rest.Alike.of_forall₂ halike⟩
      rw [Rest.ofNative, hi']
      dsimp only
      rw [isStoredDate_eq_false (htext typeKey) hkept.not_date, hb]
      rfl

theorem nestedItems_plain : ∀ {items : List Rest} {guard : Nesting}, (∀ item ∈ items, Plain item) →
    guard.HasRoom (Rest.heightOfItems items) →
      ∃ natives, Native.nestedItems guard items = .ok natives ∧
        ∀ guard' : Nesting, guard'.HasRoom (Rest.heightOfItems items) →
          ∃ backs, Rest.ofItems guard' natives = .ok backs ∧ List.Forall₂ Rest.Alike backs items
  | [], guard, _, _ => ⟨[], by rw [Native.nestedItems], fun guard' _ =>
      ⟨[], by rw [Rest.ofItems], .nil⟩⟩
  | item :: rest, guard, h, hroom => by
    rw [Rest.heightOfItems] at hroom
    obtain ⟨native, hn, hback, _⟩ := nested_plain (h item List.mem_cons_self)
      (hroom.mono (Nat.le_max_left _ _))
    obtain ⟨natives, hns, hbacks⟩ := nestedItems_plain
      (fun other ho => h other (List.mem_cons_of_mem _ ho)) (hroom.mono (Nat.le_max_right _ _))
    refine ⟨native :: natives, by rw [Native.nestedItems, hn]; dsimp only; rw [hns]; rfl, ?_⟩
    intro guard' hroom'
    rw [Rest.heightOfItems] at hroom'
    obtain ⟨back, hb, ha⟩ := hback guard' (hroom'.mono (Nat.le_max_left _ _))
    obtain ⟨backs, hbs, has⟩ := hbacks guard' (hroom'.mono (Nat.le_max_right _ _))
    exact ⟨back :: backs, by rw [Rest.ofItems, hb]; dsimp only; rw [hbs]; rfl, .cons ha has⟩

theorem nestedMembers_plain : ∀ {members : List (String × Rest)} {guard : Nesting},
    (∀ member ∈ members, Plain member.2) → guard.HasRoom (Rest.heightOfMembers members) →
      ∃ columns, Native.nestedMembers guard members = .ok columns ∧
        (∀ key text, Fields.get? columns key = some (.string text) →
          Fields.get? members key = some (.string text)) ∧
        ∀ guard' : Nesting, guard'.HasRoom (Rest.heightOfMembers members) →
          ∃ backs, Rest.ofColumns guard' false columns = .ok backs ∧
            List.Forall₂ (fun a b => a.1 = b.1 ∧ Rest.Alike a.2 b.2) backs members
  | [], guard, _, _ => by
    refine ⟨[], by rw [Native.nestedMembers], fun _ _ h => ?_, fun guard' _ => ?_⟩
    · cases h
    · exact ⟨[], by rw [Rest.ofColumns], .nil⟩
  | (key, value) :: rest, guard, h, hroom => by
    rw [Rest.heightOfMembers] at hroom
    obtain ⟨native, hn, hback, htext⟩ := nested_plain (h (key, value) List.mem_cons_self)
      (hroom.mono (Nat.le_max_left _ _))
    obtain ⟨columns, hc, htexts, hbacks⟩ := nestedMembers_plain
      (fun other ho => h other (List.mem_cons_of_mem _ ho)) (hroom.mono (Nat.le_max_right _ _))
    refine ⟨(key, native) :: columns, by rw [Native.nestedMembers, hn]; dsimp only; rw [hc]; rfl,
      ?_, ?_⟩
    · intro name text hget
      rw [Fields.get?_cons] at hget ⊢
      split at hget
      · rename_i he
        rw [if_pos he]
        exact congrArg some (htext text (Option.some.inj hget))
      · rename_i he
        rw [if_neg he]
        exact htexts name text hget
    · intro guard' hroom'
      rw [Rest.heightOfMembers] at hroom'
      obtain ⟨back, hb, ha⟩ := hback guard' (hroom'.mono (Nat.le_max_left _ _))
      obtain ⟨backs, hbs, has⟩ := hbacks guard' (hroom'.mono (Nat.le_max_right _ _))
      refine ⟨(key, back) :: backs, ?_, .cons ⟨rfl, ha⟩ has⟩
      rw [Rest.ofColumns]
      simp only [Rest.storedIso?, Bool.false_and, Bool.false_eq_true, if_false, hb, hbs]
      rfl

end

end RestStore
