import RestStore.Proofs.Nesting
import RestStore.Proofs.Outcome
import RestStore.Rest.OfNative

/-!
# Stored values that can be read

A stored value can be read below the top level where there is room for its levels and nothing in it
is of a type without a REST form: `ofNative_of_fits`.
-/

set_option autoImplicit false

namespace RestStore

/-- A stored value that is no array, no document and of no opaque type. -/
def Native.IsScalar : Native → Prop
  | .array _ | .document _ | .opaqueValue _ => False
  | .null | .bool _ | .string _ | .int32 _ | .int64 _ | .double _ | .date _ | .binary _ _
  | .objectId _ | .regex _ _ => True

/-- A stored value of at most so many levels, in which nothing is opaque. -/
inductive Native.Fits : Nat → Native → Prop
  | scalar {levels : Nat} {native : Native} : native.IsScalar → Fits (levels + 1) native
  | array {levels : Nat} {items : List Native} : (∀ item ∈ items, Fits levels item) →
    Fits (levels + 1) (.array items)
  | document {levels : Nat} {columns : List (String × Native)} :
    (∀ column ∈ columns, Fits levels column.2) → Fits (levels + 1) (.document columns)

namespace Native

theorem Fits.mono {levels more : Nat} {native : Native} (h : Fits levels native)
    (hle : levels ≤ more) : Fits more native := by
  induction h generalizing more with
  | scalar hs =>
    obtain ⟨rest, rfl⟩ := Nat.exists_eq_add_of_lt hle
    exact .scalar hs
  | array _ ih =>
    obtain ⟨rest, rfl⟩ := Nat.exists_eq_add_of_lt hle
    exact .array fun item hi => ih item hi (Nat.le_add_right _ _)
  | document _ ih =>
    obtain ⟨rest, rfl⟩ := Nat.exists_eq_add_of_lt hle
    exact .document fun column hc => ih column hc (Nat.le_add_right _ _)

theorem Fits.of_isScalar {levels : Nat} {native : Native} (hs : native.IsScalar)
    (h : 0 < levels) : Fits levels native := by
  have hone : Fits 1 native := .scalar hs
  exact hone.mono h

/-- Values that fit one by one fit together. -/
theorem Fits.exists_for_all {α : Type} (part : α → Native) : ∀ {parts : List α},
    (∀ a ∈ parts, ∃ levels, Fits levels (part a)) → ∃ levels, ∀ a ∈ parts, Fits levels (part a)
  | [], _ => ⟨0, fun _ ha => nomatch ha⟩
  | a :: rest, h => by
    obtain ⟨first, hfirst⟩ := h a List.mem_cons_self
    obtain ⟨later, hlater⟩ := exists_for_all part fun b hb => h b (List.mem_cons_of_mem _ hb)
    refine ⟨max first later, fun b hb => ?_⟩
    rcases List.mem_cons.1 hb with rfl | hb
    · exact hfirst.mono (Nat.le_max_left _ _)
    · exact (hlater b hb).mono (Nat.le_max_right _ _)

theorem isScalar_ofNumber (number : Number) : (Native.ofNumber number).IsScalar := by
  cases number with
  | double d => trivial
  | integer i =>
    simp only [Native.ofNumber, Native.ofInt]
    split
    · trivial
    · split <;> trivial

end Native

namespace Rest

mutual

/-- **A stored value that fits can be read.** -/
theorem ofNative_of_fits : ∀ {native : Native} {guard : Nesting} {levels : Nat},
    native.Fits levels → guard.HasRoom levels → ∃ value, ofNative guard native = .ok value
  | .array items, guard, _, h, hroom => by
    cases h with
    | scalar hs => exact hs.elim
    | array hitems =>
      obtain ⟨inner, hi, hin⟩ := hroom.enter
      obtain ⟨values, hv⟩ := ofItems_of_fits hitems hin
      exact ⟨.array values, by rw [ofNative, hi]; dsimp only; rw [hv]; rfl⟩
  | .document columns, guard, _, h, hroom => by
    cases h with
    | scalar hs => exact hs.elim
    | document hcolumns =>
      obtain ⟨inner, hi, hin⟩ := hroom.enter
      obtain ⟨values, hv⟩ := ofColumns_of_fits (isStoredDate columns) hcolumns hin
      exact ⟨.object values, by rw [ofNative, hi]; dsimp only; rw [hv]; rfl⟩
  | .opaqueValue _, _, _, h, _ => by
    cases h with
    | scalar hs => exact hs.elim
  | .null, guard, _, .scalar _, hroom | .bool _, guard, _, .scalar _, hroom
  | .string _, guard, _, .scalar _, hroom | .int32 _, guard, _, .scalar _, hroom
  | .int64 _, guard, _, .scalar _, hroom | .double _, guard, _, .scalar _, hroom
  | .date _, guard, _, .scalar _, hroom | .binary _ _, guard, _, .scalar _, hroom
  | .objectId _, guard, _, .scalar _, hroom | .regex _ _, guard, _, .scalar _, hroom => by
    obtain ⟨inner, hi, _⟩ := hroom.enter
    exact ⟨_, by rw [ofNative, hi]⟩

theorem ofItems_of_fits : ∀ {items : List Native} {guard : Nesting} {levels : Nat},
    (∀ item ∈ items, item.Fits levels) → guard.HasRoom levels →
      ∃ values, ofItems guard items = .ok values
  | [], _, _, _, _ => ⟨[], by rw [ofItems]⟩
  | item :: rest, guard, levels, h, hroom => by
    obtain ⟨value, hv⟩ := ofNative_of_fits (h item List.mem_cons_self) hroom
    obtain ⟨values, hvs⟩ := ofItems_of_fits
      (fun other ho => h other (List.mem_cons_of_mem _ ho)) hroom
    exact ⟨value :: values, by rw [ofItems, hv]; dsimp only; rw [hvs]; rfl⟩

theorem ofColumns_of_fits : ∀ (storedDate : Bool) {columns : List (String × Native)}
    {guard : Nesting} {levels : Nat}, (∀ column ∈ columns, column.2.Fits levels) →
      guard.HasRoom levels → ∃ values, ofColumns guard storedDate columns = .ok values
  | _, [], _, _, _, _ => ⟨[], by rw [ofColumns]⟩
  | storedDate, (key, native) :: rest, guard, levels, h, hroom => by
    obtain ⟨value, hv⟩ := ofNative_of_fits (h (key, native) List.mem_cons_self) hroom
    obtain ⟨values, hvs⟩ := ofColumns_of_fits storedDate
      (fun other ho => h other (List.mem_cons_of_mem _ ho)) hroom
    rw [ofColumns]
    cases storedIso? storedDate key native with
    | some text => exact ⟨(key, .string text) :: values, by dsimp only; rw [hvs]; rfl⟩
    | none => exact ⟨(key, value) :: values, by dsimp only; rw [hv]; dsimp only; rw [hvs]; rfl⟩

end

end Rest

end RestStore
