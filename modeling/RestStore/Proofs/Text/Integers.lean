import RestStore.Proofs.Text.Digits
import RestStore.Text.Blank

/-!
# The text of an integer

The text of an integer holds nothing that is trimmed, and is read back as that integer:
`trim_toString`, `integerOfChars?_toString`. So is any other spelling, with a plus or with zeros in
front, and nothing else is: `SpellsInteger.integerOfChars?`, `SpellsInteger.of_integerOfChars?`.
-/

set_option autoImplicit false

namespace RestStore

/-- The text of an integer: its digits, after a minus for a negative one. -/
theorem toList_toString (i : Int) :
    (toString i).toList =
      if i < 0 then '-' :: Nat.toDigits 10 i.natAbs else Nat.toDigits 10 i.natAbs := by
  cases i with
  | ofNat n =>
    show (Nat.repr n).toList = _
    rw [if_neg (by simp)]
    exact Nat.toList_repr
  | negSucc n =>
    show ("-" ++ Nat.repr (n + 1)).toList = _
    rw [if_pos (Int.negSucc_lt_zero n), String.toList_append, Nat.toList_repr]
    rfl

/-! ## Nothing to trim -/

theorem not_isBlank_of_isDigit {c : Char} (h : c.isDigit = true) : isBlank c = false := by
  rw [Char.isDigit_iff_toNat] at h
  obtain ⟨hlow, hhigh⟩ : 48 ≤ c.toNat ∧ c.toNat ≤ 57 := h
  simp only [isBlank, blankRanges, List.any_cons, List.any_nil, Bool.or_false, Bool.or_eq_false_iff,
    decide_eq_false_iff_not]
  omega

theorem trim_eq_self {cs : List Char} (h : ∀ c ∈ cs, isBlank c = false) : trim cs = cs := by
  have hdrop : ∀ {ds : List Char}, (∀ c ∈ ds, isBlank c = false) → ds.dropWhile isBlank = ds := by
    intro ds hds
    cases ds with
    | nil => rfl
    | cons d rest => rw [List.dropWhile_cons_of_neg (by simp [hds d List.mem_cons_self])]
  unfold trim trimStart
  rw [hdrop h, hdrop fun c hc => h c (List.mem_reverse.1 hc), List.reverse_reverse]

/-- The text of an integer has no white space. -/
theorem trim_toString (i : Int) : trim (toString i).toList = (toString i).toList := by
  have hdigits : ∀ c ∈ Nat.toDigits 10 i.natAbs, isBlank c = false := fun c hc =>
    not_isBlank_of_isDigit (Nat.isDigit_of_mem_toDigits (by decide) (by decide) hc)
  refine trim_eq_self fun c hc => ?_
  rw [toList_toString] at hc
  split at hc
  · rcases List.mem_cons.1 hc with rfl | hc
    · decide
    · exact hdigits c hc
  · exact hdigits c hc

/-! ## Reading it back -/

theorem splitSign_of_head? {cs : List Char} (hminus : cs.head? ≠ some '-')
    (hplus : cs.head? ≠ some '+') : splitSign cs = (false, cs) := by
  unfold splitSign
  split
  · exact absurd rfl hminus
  · exact absurd rfl hplus
  · rfl

theorem splitSign_of_isDigit {cs : List Char} (h : ∀ c ∈ cs, c.isDigit = true) :
    splitSign cs = (false, cs) := by
  unfold splitSign
  split
  · cases h '-' List.mem_cons_self
  · cases h '+' List.mem_cons_self
  · rfl

/-- A sign was there, or there was none. -/
theorem splitSign_cases {cs body : List Char} {negative : Bool}
    (h : splitSign cs = (negative, body)) :
    (negative = true ∧ cs = '-' :: body) ∨ (negative = false ∧ (cs = '+' :: body ∨ cs = body)) := by
  unfold splitSign at h
  split at h <;> obtain ⟨rfl, rfl⟩ := Prod.mk.inj h
  · exact .inl ⟨rfl, rfl⟩
  · exact .inr ⟨rfl, .inl rfl⟩
  · exact .inr ⟨rfl, .inr rfl⟩

/-- **A sign and digits** are read as the integer that they spell. -/
theorem integerOfChars?_of_splitSign {cs digits : List Char} {negative : Bool}
    (hsign : splitSign cs = (negative, digits)) (hne : digits ≠ [])
    (hdigits : ∀ c ∈ digits, c.isDigit = true) :
    integerOfChars? cs = some (signedInt negative (Nat.ofDigitChars 10 digits 0)) := by
  have hspan : spanDigits (digits ++ []) = (digitValues digits, []) :=
    spanDigits_of_isDigit hdigits nofun
  have hvalue := natOfDigits_values digits
  obtain ⟨d, ds, hcons⟩ : ∃ d ds, digitValues digits = d :: ds := by
    unfold digitValues
    cases digits with
    | nil => exact absurd rfl hne
    | cons c cs => exact ⟨_, _, rfl⟩
  rw [List.append_nil, hcons] at hspan
  rw [hcons] at hvalue
  unfold integerOfChars?
  simp only [hsign, hspan, hvalue]

/-- **An integer is read back from its text.** -/
theorem integerOfChars?_toString (i : Int) : integerOfChars? (toString i).toList = some i := by
  have hdigits : ∀ c ∈ Nat.toDigits 10 i.natAbs, c.isDigit = true := fun c hc =>
    Nat.isDigit_of_mem_toDigits (by decide) (by decide) hc
  rw [toList_toString]
  by_cases hneg : i < 0
  · have hi : signedInt true i.natAbs = i := by
      simp only [signedInt, if_true]
      omega
    have hsign : splitSign ('-' :: Nat.toDigits 10 i.natAbs) = (true, Nat.toDigits 10 i.natAbs) :=
      rfl
    rw [if_pos hneg, integerOfChars?_of_splitSign hsign Nat.toDigits_ne_nil hdigits,
      Nat.ofDigitChars_ten_toDigits, hi]
  · have hi : signedInt false i.natAbs = i := by
      simp only [signedInt, Bool.false_eq_true, if_false]
      omega
    rw [if_neg hneg, integerOfChars?_of_splitSign (splitSign_of_isDigit hdigits)
      Nat.toDigits_ne_nil hdigits, Nat.ofDigitChars_ten_toDigits, hi]

/-! ## Other spellings -/

/-- An integer as a text: decimal digits, any zeros before them, and a sign or none. -/
inductive SpellsInteger : List Char → Int → Prop
  | plain {digits : List Char} : digits ≠ [] → (∀ c ∈ digits, c.isDigit = true) →
    SpellsInteger digits (Nat.ofDigitChars 10 digits 0)
  | plus {digits : List Char} : digits ≠ [] → (∀ c ∈ digits, c.isDigit = true) →
    SpellsInteger ('+' :: digits) (Nat.ofDigitChars 10 digits 0)
  | minus {digits : List Char} : digits ≠ [] → (∀ c ∈ digits, c.isDigit = true) →
    SpellsInteger ('-' :: digits) (-(Nat.ofDigitChars 10 digits 0 : Int))

namespace SpellsInteger

variable {cs : List Char} {i : Int}

/-- Every spelling of an integer is read as it. -/
theorem integerOfChars? (h : SpellsInteger cs i) : RestStore.integerOfChars? cs = some i := by
  cases h with
  | plain hne hdigits =>
    exact integerOfChars?_of_splitSign (splitSign_of_isDigit hdigits) hne hdigits
  | plus hne hdigits => exact integerOfChars?_of_splitSign rfl hne hdigits
  | minus hne hdigits => exact integerOfChars?_of_splitSign rfl hne hdigits

/-- **Only spellings are read**, and as the integer that they spell. -/
theorem of_integerOfChars? (h : RestStore.integerOfChars? cs = some i) : SpellsInteger cs i := by
  obtain ⟨negative, body, hsign⟩ : ∃ negative body, splitSign cs = (negative, body) := ⟨_, _, rfl⟩
  obtain ⟨digits, rest, rfl, hdigits, hrest⟩ := exists_digits_append body
  unfold RestStore.integerOfChars? at h
  simp only [hsign, spanDigits_of_isDigit hdigits hrest] at h
  obtain ⟨hne, rfl, hi⟩ : digits ≠ [] ∧ rest = [] ∧
      signedInt negative (natOfDigits (digitValues digits)) = i := by
    split at h
    · rename_i hspan
      obtain ⟨hvalues, rfl⟩ := Prod.mk.inj hspan
      refine ⟨?_, rfl, by rw [hvalues]; exact Option.some_inj.1 h⟩
      rintro rfl
      cases hvalues
    · cases h
  rw [natOfDigits_values] at hi
  rw [List.append_nil] at hsign
  subst hi
  rcases splitSign_cases hsign with ⟨rfl, rfl⟩ | ⟨rfl, rfl | rfl⟩
  · exact .minus hne hdigits
  · exact .plus hne hdigits
  · exact .plain hne hdigits

/-- It starts with a sign or a digit. -/
theorem head (h : SpellsInteger cs i) :
    ∃ c rest, cs = c :: rest ∧ (c = '+' ∨ c = '-' ∨ c.isDigit = true) := by
  cases h with
  | plain hne hdigits =>
    cases cs with
    | nil => exact absurd rfl hne
    | cons c rest => exact ⟨c, rest, rfl, .inr (.inr (hdigits c List.mem_cons_self))⟩
  | plus _ _ => exact ⟨'+', _, rfl, .inl rfl⟩
  | minus _ _ => exact ⟨'-', _, rfl, .inr (.inl rfl)⟩

end SpellsInteger

end RestStore
