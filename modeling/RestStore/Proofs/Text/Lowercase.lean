import RestStore.Text.Lowercase

/-!
# Spaces in lower case

The case of a letter depends on its neighbours only through a sigma, and no neighbour behind a space
counts. So a text in lower case is its parts between spaces in lower case, with the same spaces:
`lowercase_append_space`. A part stays a part: `space_mem_lowercase`, `lowercase_eq_nil_iff`.
-/

set_option autoImplicit false

namespace RestStore

/-- The lower case of a character between what is before it, reversed, and what follows it. -/
def lowered (before : List Char) (c : Char) (rest : List Char) : List Char :=
  if c = 'Σ' then [if meetsCased before && !meetsCased rest then 'ς' else 'σ']
  else if c = 'İ' then ['i', '\u0307']
  else [lowerLetter c]

theorem lowerAfter_cons (before : List Char) (c : Char) (rest : List Char) :
    lowerAfter before (c :: rest) = lowered before c rest ++ lowerAfter (c :: before) rest := rfl

/-! ## Nothing behind a space counts -/

theorem not_inRanges_space {ranges : List (Nat × Nat)} (h : ∀ range ∈ ranges, 32 < range.1) :
    inRanges ranges ' ' = false := by
  refine List.any_eq_false.2 fun range hm => ?_
  have hspace : (' ' : Char).toNat = 32 := rfl
  have hbehind := h range hm
  rw [decide_eq_true_iff, hspace]
  omega

theorem not_ignorable_space : inRanges caseIgnorableRanges ' ' = false :=
  not_inRanges_space (by decide +kernel)

theorem not_cased_space : inRanges casedRanges ' ' = false :=
  not_inRanges_space (by decide +kernel)

theorem meetsCased_append_space (cs rest : List Char) :
    meetsCased (cs ++ ' ' :: rest) = meetsCased cs := by
  unfold meetsCased
  induction cs with
  | nil =>
    rw [List.nil_append, List.dropWhile_cons_of_neg (by rw [not_ignorable_space]; simp)]
    exact not_cased_space
  | cons c cs ih =>
    rw [List.cons_append]
    cases hc : inRanges caseIgnorableRanges c with
    | true => rwa [List.dropWhile_cons_of_pos hc, List.dropWhile_cons_of_pos hc]
    | false =>
      have hstop : ¬inRanges caseIgnorableRanges c = true := Bool.eq_false_iff.1 hc
      rw [List.dropWhile_cons_of_neg hstop, List.dropWhile_cons_of_neg hstop]

theorem lowerAfter_space_before (cs before rest : List Char) :
    lowerAfter (cs ++ ' ' :: before) rest = lowerAfter cs rest := by
  induction rest generalizing cs with
  | nil => rfl
  | cons c rest ih =>
    rw [lowerAfter_cons, lowerAfter_cons, lowered, lowered, meetsCased_append_space,
      ← List.cons_append, ih]

theorem lowerAfter_append_space (before cs rest : List Char) :
    lowerAfter before (cs ++ ' ' :: rest) = lowerAfter before cs ++ ' ' :: lowercase rest := by
  induction cs generalizing before with
  | nil =>
    have hrest := lowerAfter_space_before [] before rest
    rw [List.nil_append] at hrest
    rw [List.nil_append, lowerAfter_cons, hrest]
    rfl
  | cons c cs ih =>
    rw [List.cons_append, lowerAfter_cons, lowerAfter_cons, ih, lowered, lowered,
      meetsCased_append_space, List.append_assoc]

/-- **A text with a space** is lowered on both sides of it. -/
theorem lowercase_append_space (cs rest : List Char) :
    lowercase (cs ++ ' ' :: rest) = lowercase cs ++ ' ' :: lowercase rest :=
  lowerAfter_append_space [] cs rest

/-! ## Nothing becomes a space -/

/-- Every lower-case letter of the table stands behind the space. -/
theorem caseRuns_behind_space : ∀ run ∈ caseRuns, 32 < (run.first : Int) + run.shift := by
  decide +kernel

theorem toLower_eq_space : ∀ code < 128, (Char.ofNat code).toLower = ' ' → code = 32 := by
  decide

/-- A number that is no character stands for the first one. -/
theorem toNat_ofNat (code : Nat) :
    (Char.ofNat code).toNat = if code.isValidChar then code else 0 := by
  by_cases hvalid : code.isValidChar
  · rw [Char.ofNat, dif_pos hvalid, if_pos hvalid]
    rfl
  · rw [Char.ofNat, dif_neg hvalid, if_neg hvalid]
    rfl

theorem eq_space_of_lowerLetter {c : Char} (h : lowerLetter c = ' ') : c = ' ' := by
  unfold lowerLetter at h
  split at h
  · rename_i hascii
    rw [← Char.ofNat_toNat c] at h
    exact Char.toNat_inj.1 (toLower_eq_space c.toNat hascii h)
  · split at h
    · rename_i run hfound
      have hcovers := List.find?_some hfound
      simp only [CaseRun.covers, Bool.and_eq_true, decide_eq_true_eq] at hcovers
      have hbehind := caseRuns_behind_space run (List.mem_of_find?_eq_some hfound)
      have hcode := congrArg Char.toNat h
      rw [toNat_ofNat] at hcode
      have hspace : (' ' : Char).toNat = 32 := rfl
      split at hcode <;> omega
    · exact h

theorem ne_nil_lowered (before : List Char) (c : Char) (rest : List Char) :
    lowered before c rest ≠ [] := by
  unfold lowered
  split
  · exact List.cons_ne_nil _ _
  · split <;> exact List.cons_ne_nil _ _

theorem eq_space_of_lowered {before rest : List Char} {c : Char}
    (h : ' ' ∈ lowered before c rest) : c = ' ' := by
  unfold lowered at h
  split at h
  · split at h <;> simp at h
  · split at h
    · simp at h
    · exact eq_space_of_lowerLetter (List.mem_singleton.1 h).symm

theorem space_mem_lowerAfter {before cs : List Char} (h : ' ' ∈ lowerAfter before cs) :
    ' ' ∈ cs := by
  induction cs generalizing before with
  | nil => exact h
  | cons c cs ih =>
    rw [lowerAfter_cons, List.mem_append] at h
    rcases h with h | h
    · rw [eq_space_of_lowered h]
      exact List.mem_cons_self
    · exact List.mem_cons_of_mem _ (ih h)

/-- **A text in lower case has no space of its own.** -/
theorem space_mem_lowercase {cs : List Char} (h : ' ' ∈ lowercase cs) : ' ' ∈ cs :=
  space_mem_lowerAfter h

theorem lowercase_eq_nil_iff {cs : List Char} : lowercase cs = [] ↔ cs = [] := by
  cases cs with
  | nil => exact iff_of_true rfl rfl
  | cons c cs =>
    refine iff_of_false (fun h => ?_) (List.cons_ne_nil _ _)
    exact ne_nil_lowered _ _ _ (List.append_eq_nil_iff.1 h).1

end RestStore
