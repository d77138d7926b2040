import Mathlib.Data.List.Basic
import RestStore.Text.Affix

/-!
# Beginnings and ends of texts

What a beginning or an end leaves is the rest of the text: `dropStart?_eq_some_iff`,
`dropEnd?_eq_some_iff`, `hasStart_iff`. Texts with different beginnings differ: `ne_of_hasStart`.
-/

set_option autoImplicit false

namespace RestStore

theorem dropStart?_eq_some_iff {start text rest : String} :
    dropStart? start text = some rest ↔ text = start ++ rest := by
  unfold dropStart?
  rw [Option.map_eq_some_iff]
  constructor
  · rintro ⟨cs, hcs, rfl⟩
    rw [List.isPrefixOf?_eq_some_iff_append_eq] at hcs
    apply String.toList_inj.mp
    simp [← hcs]
  · rintro rfl
    exact ⟨rest.toList, by simp, by simp⟩

theorem dropEnd?_eq_some_iff {finish text rest : String} :
    dropEnd? finish text = some rest ↔ text = rest ++ finish := by
  unfold dropEnd?
  rw [Option.map_eq_some_iff]
  constructor
  · rintro ⟨cs, hcs, rfl⟩
    rw [List.isSuffixOf?_eq_some_iff_append_eq] at hcs
    apply String.toList_inj.mp
    simp [← hcs]
  · rintro rfl
    exact ⟨rest.toList, by simp, by simp⟩

theorem hasStart_iff {start text : String} :
    hasStart start text = true ↔ ∃ rest, text = start ++ rest := by
  unfold hasStart
  rw [Option.isSome_iff_exists]
  simp only [dropStart?_eq_some_iff]

theorem hasStart_append (start rest : String) : hasStart start (start ++ rest) = true :=
  hasStart_iff.2 ⟨rest, rfl⟩

/-! ## Texts told apart by their beginning -/

section

variable {start first second : String} {names : List String}

theorem ne_of_hasStart (hfirst : hasStart start first = true)
    (hsecond : hasStart start second = false) : first ≠ second := by
  rintro rfl
  rw [hfirst] at hsecond
  cases hsecond

/-- A text that lacks a beginning lacks every longer one. -/
theorem dropStart?_eq_none {text : String} (hfirst : hasStart start first = true)
    (htext : hasStart start text = false) : dropStart? first text = none := by
  rw [Option.eq_none_iff_forall_ne_some]
  intro rest hrest
  obtain ⟨more, rfl⟩ := hasStart_iff.1 hfirst
  rw [dropStart?_eq_some_iff.1 hrest, String.append_assoc, hasStart_append] at htext
  cases htext

theorem not_mem_of_hasStart (hfirst : hasStart start first = true)
    (hnames : ∀ name ∈ names, hasStart start name = false) : first ∉ names :=
  fun hm => ne_of_hasStart hfirst (hnames first hm) rfl

theorem not_mem_of_not_hasStart (hfirst : hasStart start first = false)
    (hnames : ∀ name ∈ names, hasStart start name = true) : first ∉ names :=
  fun hm => ne_of_hasStart (hnames first hm) hfirst rfl

end

end RestStore
