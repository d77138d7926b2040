import RestStore.Calendar.Iso

/-!
# Characters that no date holds

Most characters have no place in the form of a date: every piece of a form leaves them in the rest
of the text, and at the end of a form the rest is empty. `Unread` names the characters that are
neither digits nor white space nor marks of the two forms without an offset; a text with one of them
is read by neither of these, as `dateTime?_eq_none` and `date?_eq_none` say. The first form has a few
marks more, which `timestamp?_eq_none` excludes too. So the stored text of a pointer is never read as
a date: `parse?_eq_none`. The forms are followed piece by piece with `read_eq_none` and
`expect_eq_none`.
-/

set_option autoImplicit false

namespace RestStore

namespace Iso

/-- A character that has no place in a date or a time without an offset. -/
structure Unread (mark : Char) : Prop where
  not_digit : digitValue? mark = none
  not_blank : isBlank mark = false
  not_sign : mark ≠ '-' ∧ mark ≠ '+'
  not_colon : mark ≠ ':'
  not_point : mark ≠ '.'
  not_separator : mark ≠ 'T'

theorem unread_dollar : Unread '$' :=
  ⟨by decide, by decide, by decide, by decide, by decide, by decide⟩

theorem unread_zulu : Unread 'Z' :=
  ⟨by decide, by decide, by decide, by decide, by decide, by decide⟩

section

variable {mark : Char} (hmark : Unread mark)
include hmark

/-! ## Pieces -/

theorem mem_spanUpTo : ∀ (most : Nat) {cs : List Char}, mark ∈ cs → mark ∈ (spanUpTo most cs).2
  | 0, _, h => h
  | most + 1, c :: rest, h => by
    rw [spanUpTo]
    cases hv : digitValue? c with
    | none => exact h
    | some digit =>
      have hne : mark ≠ c := by
        rintro rfl
        cases hmark.not_digit.symm.trans hv
      exact mem_spanUpTo most ((List.mem_cons.1 h).resolve_left hne)

theorem mem_spanDigits : ∀ {cs : List Char}, mark ∈ cs → mark ∈ (spanDigits cs).2
  | c :: rest, h => by
    rw [spanDigits]
    cases hv : digitValue? c with
    | none => exact h
    | some digit =>
      have hne : mark ≠ c := by
        rintro rfl
        cases hmark.not_digit.symm.trans hv
      exact mem_spanDigits ((List.mem_cons.1 h).resolve_left hne)

theorem mem_trimStart : ∀ {cs : List Char}, mark ∈ cs → mark ∈ trimStart cs
  | c :: rest, h => by
    unfold trimStart
    rw [List.dropWhile_cons]
    split
    · rename_i hb
      have hne : mark ≠ c := by
        rintro rfl
        cases hmark.not_blank.symm.trans hb
      exact mem_trimStart ((List.mem_cons.1 h).resolve_left hne)
    · exact h

variable {cs rest : List Char}

omit hmark in
theorem mem_of_expect {c : Char} (hc : mark ≠ c) (h : mark ∈ cs) (he : expect c cs = some rest) :
    mark ∈ rest := by
  unfold expect at he
  split at he
  · cases he
  · split at he
    · rename_i hd
      cases he
      subst hd
      exact (List.mem_cons.1 h).resolve_left hc
    · cases he

theorem mem_of_fixed {width n : Nat} (h : mark ∈ cs) (hf : fixed width cs = some (n, rest)) :
    mark ∈ rest := by
  unfold fixed at hf
  dsimp only at hf
  split at hf
  · cases hf
    exact mem_spanUpTo hmark width h
  · cases hf

theorem mem_of_loose {most n : Nat} (h : mark ∈ cs) (hl : loose most cs = some (n, rest)) :
    mark ∈ rest := by
  have hspan := mem_spanUpTo hmark most (mem_trimStart hmark h)
  unfold loose at hl
  split at hl
  · cases hl
  · rename_i hs
    cases hl
    rwa [hs] at hspan

theorem mem_of_looseYear {year : Int} (h : mark ∈ cs) (hl : looseYear cs = some (year, rest)) :
    mark ∈ rest := by
  have htrim := mem_trimStart hmark h
  unfold looseYear at hl
  dsimp only at hl
  split at hl
  · rename_i body hb
    rw [hb] at htrim
    have hspan := mem_spanDigits hmark ((List.mem_cons.1 htrim).resolve_left hmark.not_sign.1)
    split at hl
    · cases hl
    · rename_i hs
      cases hl
      rwa [hs] at hspan
  · rename_i body hb
    rw [hb] at htrim
    have hspan := mem_spanDigits hmark ((List.mem_cons.1 htrim).resolve_left hmark.not_sign.2)
    split at hl
    · cases hl
    · rename_i hs
      cases hl
      rwa [hs] at hspan
  · have hspan := mem_spanUpTo hmark 4 htrim
    split at hl
    · cases hl
    · rename_i hs
      cases hl
      rwa [hs] at hspan

theorem mem_of_fraction {nanos : Nat} (h : mark ∈ cs) (hf : fraction cs = some (nanos, rest)) :
    mark ∈ rest := by
  unfold fraction at hf
  split at hf
  · have hspan := mem_spanDigits hmark ((List.mem_cons.1 h).resolve_left hmark.not_point)
    split at hf
    · cases hf
    · rename_i hs
      cases hf
      rwa [hs] at hspan
  · cases hf
    exact h

omit hmark in
/-- A reader that leaves the character in the rest fails if what follows it does. -/
theorem read_eq_none {α β : Type} {read : Option (α × List Char)}
    {next : α × List Char → Option β} (hread : ∀ {a rest}, read = some (a, rest) → mark ∈ rest)
    (hnext : ∀ a rest, mark ∈ rest → next (a, rest) = none) : (read >>= next) = none := by
  cases hr : read with
  | none => rfl
  | some found => exact hnext found.1 found.2 (hread hr)

omit hmark in
theorem expect_eq_none {β : Type} {c : Char} {next : List Char → Option β} (hc : mark ≠ c)
    (h : mark ∈ cs) (hnext : ∀ rest, mark ∈ rest → next rest = none) :
    (expect c cs >>= next) = none := by
  cases he : expect c cs with
  | none => rfl
  | some rest => exact hnext rest (mem_of_expect hc h he)

omit hmark in
theorem not_isEmpty (h : mark ∈ cs) : cs.isEmpty = false := by
  cases cs with
  | nil => cases h
  | cons _ _ => rfl

/-! ## Forms without an offset -/

theorem mem_of_looseDate {date : CivilDate} (h : mark ∈ cs)
    (hl : looseDate cs = some (date, rest)) : mark ∈ rest := by
  unfold looseDate at hl
  simp only [Option.bind_eq_bind, Option.bind_eq_some_iff, Prod.exists] at hl
  obtain ⟨_, cs₁, h₁, cs₂, h₂, _, cs₃, h₃, cs₄, h₄, _, cs₅, h₅, hend⟩ := hl
  have hdash : mark ≠ '-' := hmark.not_sign.1
  split at hend
  · cases hend
    have hyear : mark ∈ cs₁ := mem_of_looseYear hmark h h₁
    have hmonth : mark ∈ cs₃ := mem_of_loose hmark (mem_of_expect hdash hyear h₂) h₃
    exact mem_of_loose hmark (mem_of_expect hdash hmonth h₄) h₅
  · cases hend

theorem dateTime?_eq_none (h : mark ∈ cs) : dateTime? cs = none := by
  unfold dateTime?
  apply read_eq_none (mem_of_looseDate hmark h)
  intro date cs₁ h₁
  apply expect_eq_none hmark.not_separator h₁
  intro cs₂ h₂
  apply read_eq_none (mem_of_loose hmark h₂)
  intro hour cs₃ h₃
  apply expect_eq_none hmark.not_colon h₃
  intro cs₄ h₄
  apply read_eq_none (mem_of_loose hmark h₄)
  intro minute cs₅ h₅
  apply expect_eq_none hmark.not_colon h₅
  intro cs₆ h₆
  apply read_eq_none (mem_of_loose hmark h₆)
  intro second cs₇ h₇
  apply read_eq_none (mem_of_fraction hmark h₇)
  intro nanos cs₈ h₈
  simp [not_isEmpty h₈]

theorem date?_eq_none (h : mark ∈ cs) : date? cs = none := by
  unfold date?
  apply read_eq_none (mem_of_looseDate hmark h)
  intro date cs₁ h₁
  simp [not_isEmpty h₁]

/-! ## Timestamps -/

theorem offset?_eq_none (hend : mark ∉ ['Z', 'z', '\u2212']) (h : mark ∈ cs) :
    offset? cs = none := by
  simp only [List.mem_cons, List.not_mem_nil, or_false, not_or] at hend
  obtain ⟨hzulu, hsmall, hminus⟩ := hend
  unfold offset?
  extract_lets signedOffset
  have hsigned : ∀ (negative : Bool) {body : List Char}, mark ∈ body →
      signedOffset negative body = none := by
    intro negative body hbody
    apply read_eq_none (mem_of_fixed hmark hbody)
    intro hours cs₁ h₁
    apply expect_eq_none hmark.not_colon h₁
    intro cs₂ h₂
    apply read_eq_none (mem_of_fixed hmark h₂)
    intro minutes cs₃ h₃
    simp [not_isEmpty h₃]
  split
  · exact absurd (List.mem_singleton.1 h) hzulu
  · exact absurd (List.mem_singleton.1 h) hsmall
  · exact hsigned false ((List.mem_cons.1 h).resolve_left hmark.not_sign.2)
  · exact hsigned true ((List.mem_cons.1 h).resolve_left hmark.not_sign.1)
  · exact hsigned true ((List.mem_cons.1 h).resolve_left hminus)
  · rfl

theorem timestamp?_eq_none (hend : mark ∉ ['Z', 'z', '\u2212']) (hsep : mark ≠ 't' ∧ mark ≠ ' ')
    (h : mark ∈ cs) : timestamp? cs = none := by
  have hdash : mark ≠ '-' := hmark.not_sign.1
  unfold timestamp?
  apply read_eq_none (mem_of_fixed hmark h)
  intro year cs₁ h₁
  apply expect_eq_none hdash h₁
  intro cs₂ h₂
  apply read_eq_none (mem_of_fixed hmark h₂)
  intro month cs₃ h₃
  apply expect_eq_none hdash h₃
  intro cs₄ h₄
  apply read_eq_none (mem_of_fixed hmark h₄)
  intro day cs₅ h₅
  dsimp only
  split
  · rename_i separator later
    split
    · rename_i hc
      have h₆ : mark ∈ later := by
        refine (List.mem_cons.1 h₅).resolve_left ?_
        rintro rfl
        rcases hc with hc | hc | hc
        · exact hmark.not_separator hc
        · exact hsep.1 hc
        · exact hsep.2 hc
      apply read_eq_none (mem_of_fixed hmark h₆)
      intro hour cs₇ h₇
      apply expect_eq_none hmark.not_colon h₇
      intro cs₈ h₈
      apply read_eq_none (mem_of_fixed hmark h₈)
      intro minute cs₉ h₉
      apply expect_eq_none hmark.not_colon h₉
      intro cs₁₀ h₁₀
      apply read_eq_none (mem_of_fixed hmark h₁₀)
      intro second cs₁₁ h₁₁
      apply read_eq_none (mem_of_fraction hmark h₁₁)
      intro nanos cs₁₂ h₁₂
      dsimp only
      rw [offset?_eq_none hmark hend h₁₂]
      rfl
    · rfl
  · rfl

end

/-- **A text with a dollar sign is no date.** -/
theorem parse?_eq_none {text : String} (h : '$' ∈ text.toList) : parse? text = none := by
  unfold parse?
  dsimp only
  rw [timestamp?_eq_none unread_dollar (by decide) (by decide) h,
    dateTime?_eq_none unread_dollar h, date?_eq_none unread_dollar h]
  rfl

/-- A text that ends in the mark of UTC has an offset, and is read as a timestamp or not at all. -/
theorem parse?_of_zulu {text : String} (h : 'Z' ∈ text.toList) :
    parse? text = timestamp? text.toList := by
  unfold parse?
  dsimp only
  rw [dateTime?_eq_none unread_zulu h, date?_eq_none unread_zulu h]
  cases timestamp? text.toList <;> rfl

/-- A timestamp starts with a digit. -/
theorem timestamp?_cons {c : Char} (hc : digitValue? c = none) (rest : List Char) :
    timestamp? (c :: rest) = none := by
  have hspan : spanUpTo 4 (c :: rest) = ([], c :: rest) := by
    rw [spanUpTo, hc]
  unfold timestamp? fixed
  rw [hspan]
  rfl

end Iso

end RestStore
