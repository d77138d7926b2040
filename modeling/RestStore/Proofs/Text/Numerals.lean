import Mathlib.Tactic.FieldSimp
import RestStore.Double.Decimal
import RestStore.Proofs.Double.Value
import RestStore.Proofs.Text.Integers

/-!
# The numbers that texts spell

Decimal notation, with a point or an exponent, and the rational number that a text denotes in it.
The notation is described without the reader: `SpellsNumber`. The reader accepts this notation
besides the names of infinity and NaN, and finds the number as an integer with a power of ten:
`SpellsNumber.iff_ofChars?`. So a text denotes one number at most: `SpellsNumber.unique`.

* `SpellsMantissa`, `SpellsExponent`, `SpellsUnsigned` — the parts of a number, without its sign.
* `unsignedOfChars?_whole`, `unsignedOfChars?_point` — how the reader takes them.
-/

set_option autoImplicit false

namespace RestStore

/-! ## Notation -/

/-- Digits, with a point before, between or behind them, or without one. -/
inductive SpellsMantissa : List Char → ℚ → Prop
  | whole {digits : List Char} : digits ≠ [] → (∀ c ∈ digits, c.isDigit = true) →
    SpellsMantissa digits (Nat.ofDigitChars 10 digits 0)
  | point {whole fraction : List Char} : whole ≠ [] ∨ fraction ≠ [] →
    (∀ c ∈ whole, c.isDigit = true) → (∀ c ∈ fraction, c.isDigit = true) →
      SpellsMantissa (whole ++ '.' :: fraction)
        (Nat.ofDigitChars 10 whole 0 + Nat.ofDigitChars 10 fraction 0 / 10 ^ fraction.length)

/-- A mark and an integer, or nothing. -/
inductive SpellsExponent : List Char → Int → Prop
  | absent : SpellsExponent [] 0
  | marked {mark : Char} {text : List Char} {exponent : Int} : mark = 'e' ∨ mark = 'E' →
    SpellsInteger text exponent → SpellsExponent (mark :: text) exponent

/-- A number without a sign. -/
inductive SpellsUnsigned : List Char → ℚ → Prop
  | mk {mantissa tail : List Char} {q : ℚ} {exponent : Int} : SpellsMantissa mantissa q →
    SpellsExponent tail exponent → SpellsUnsigned (mantissa ++ tail) (q * 10 ^ exponent)

/-- **A number as a text** in decimal or exponent notation, with a sign or none. -/
inductive SpellsNumber : List Char → ℚ → Prop
  | plain {cs : List Char} {q : ℚ} : SpellsUnsigned cs q → SpellsNumber cs q
  | plus {cs : List Char} {q : ℚ} : SpellsUnsigned cs q → SpellsNumber ('+' :: cs) q
  | minus {cs : List Char} {q : ℚ} : SpellsUnsigned cs q → SpellsNumber ('-' :: cs) (-q)

namespace Numeral

variable {cs : List Char} {q : ℚ} {exponent : Int}

/-! ## Exponents -/

theorem tailExponent?_eq_some_iff :
    tailExponent? cs = some exponent ↔ SpellsExponent cs exponent := by
  constructor
  · intro h
    cases cs with
    | nil =>
      obtain rfl : 0 = exponent := Option.some_inj.1 h
      exact .absent
    | cons mark text =>
      rw [tailExponent?] at h
      split_ifs at h with hmark
      exact .marked hmark (SpellsInteger.of_integerOfChars? h)
  · intro h
    cases h with
    | absent => rfl
    | marked hmark htext => rw [tailExponent?, if_pos hmark, htext.integerOfChars?]

/-- An exponent ends the digits before it, and has no point. -/
theorem head_of_spellsExponent (h : SpellsExponent cs exponent) :
    ∀ c, cs.head? = some c → digitValue? c = none ∧ c ≠ '.' := by
  rintro c hc
  cases h with
  | absent => cases hc
  | marked hmark _ =>
    obtain rfl := Option.some_inj.1 hc
    rcases hmark with rfl | rfl <;> decide

/-! ## Digits -/

theorem isEmpty_digitValues (digits : List Char) :
    (digitValues digits).isEmpty = digits.isEmpty := by
  cases digits <;> rfl

/-- Digits without a point. -/
theorem unsignedOfChars?_whole {digits tail : List Char} (hdigits : ∀ c ∈ digits, c.isDigit = true)
    (htail : ∀ c, tail.head? = some c → digitValue? c = none ∧ c ≠ '.') (negative : Bool) :
    unsignedOfChars? negative (digits ++ tail) =
      if digits = [] then none
      else (tailExponent? tail).map fun exponent =>
        .decimal negative (Nat.ofDigitChars 10 digits 0) exponent := by
  have hspan := spanDigits_of_isDigit hdigits fun c hc => (htail c hc).1
  unfold unsignedOfChars?
  rw [hspan]
  dsimp only
  split
  · exact absurd rfl (htail '.' rfl).2
  · simp only [List.isEmpty_nil, Bool.and_true, isEmpty_digitValues, List.isEmpty_iff,
      List.append_nil, natOfDigits_values, List.length_nil, Nat.cast_zero, sub_zero]

/-- Digits around a point. -/
theorem unsignedOfChars?_point {whole fraction tail : List Char}
    (hwhole : ∀ c ∈ whole, c.isDigit = true) (hfraction : ∀ c ∈ fraction, c.isDigit = true)
    (htail : ∀ c, tail.head? = some c → digitValue? c = none) (negative : Bool) :
    unsignedOfChars? negative (whole ++ '.' :: (fraction ++ tail)) =
      if whole = [] ∧ fraction = [] then none
      else (tailExponent? tail).map fun exponent =>
        .decimal negative (Nat.ofDigitChars 10 (whole ++ fraction) 0)
          (exponent - fraction.length) := by
  have hpoint : ∀ c, ('.' :: (fraction ++ tail)).head? = some c → digitValue? c = none := by
    rintro c hc
    obtain rfl := Option.some_inj.1 hc
    decide
  have happend : digitValues whole ++ digitValues fraction = digitValues (whole ++ fraction) :=
    List.map_append.symm
  have hlength : (digitValues fraction).length = fraction.length := List.length_map _
  unfold unsignedOfChars?
  simp only [spanDigits_of_isDigit hwhole hpoint, spanDigits_of_isDigit hfraction htail,
    isEmpty_digitValues, Bool.and_eq_true, List.isEmpty_iff, happend, natOfDigits_values, hlength]

/-- Digits around a point are an integer at a lower power of ten. -/
theorem point_value (whole fraction : List Char) (exponent : Int) :
    (Nat.ofDigitChars 10 whole 0 + Nat.ofDigitChars 10 fraction 0 / 10 ^ fraction.length : ℚ) *
        10 ^ exponent =
      Nat.ofDigitChars 10 (whole ++ fraction) 0 * 10 ^ (exponent - fraction.length) := by
  have hdigits : (Nat.ofDigitChars 10 (whole ++ fraction) 0 : ℚ) =
      10 ^ fraction.length * Nat.ofDigitChars 10 whole 0 + Nat.ofDigitChars 10 fraction 0 := by
    rw [Nat.ofDigitChars_append]
    exact_mod_cast Nat.ofDigitChars_eq_ofDigitChars_zero
  have hten : (10 : ℚ) ≠ 0 := by norm_num
  rw [hdigits, zpow_sub₀ hten, zpow_natCast]
  field_simp

/-! ## Numbers without a sign -/

/-- **Spellings are read** as an integer with a power of ten. -/
theorem unsignedOfChars?_of_spells (h : SpellsUnsigned cs q) (negative : Bool) :
    ∃ digits scale, unsignedOfChars? negative cs = some (.decimal negative digits scale) ∧
      q = digits * 10 ^ scale := by
  cases h with
  | @mk mantissa tail q exponent hmantissa htail =>
    have hhead := head_of_spellsExponent htail
    have hread := tailExponent?_eq_some_iff.2 htail
    cases hmantissa with
    | whole hne hdigits =>
      refine ⟨Nat.ofDigitChars 10 mantissa 0, exponent, ?_, rfl⟩
      rw [unsignedOfChars?_whole hdigits hhead, if_neg hne, hread]
      rfl
    | @point whole fraction hne hwhole hfraction =>
      have hne' : ¬(whole = [] ∧ fraction = []) := not_and_or.2 hne
      refine ⟨_, _, ?_, point_value whole fraction exponent⟩
      rw [List.append_assoc, List.cons_append,
        unsignedOfChars?_point hwhole hfraction fun c hc => (hhead c hc).1, if_neg hne', hread]
      rfl

/-- **Only spellings are read.** -/
theorem spells_of_unsignedOfChars? {negative : Bool} {numeral : Numeral}
    (h : unsignedOfChars? negative cs = some numeral) :
    ∃ digits scale, numeral = .decimal negative digits scale ∧
      SpellsUnsigned cs (digits * 10 ^ scale) := by
  obtain ⟨whole, rest, rfl, hwhole, hrest⟩ := exists_digits_append cs
  by_cases hpoint : rest.head? = some '.'
  · obtain ⟨after, rfl⟩ : ∃ after, rest = '.' :: after := List.head?_eq_some_iff.1 hpoint
    obtain ⟨fraction, tail, rfl, hfraction, htail⟩ := exists_digits_append after
    rw [unsignedOfChars?_point hwhole hfraction htail] at h
    split_ifs at h with hne
    obtain ⟨exponent, hexponent, rfl⟩ := Option.map_eq_some_iff.1 h
    have hspells := SpellsUnsigned.mk (.point (not_and_or.1 hne) hwhole hfraction)
      (tailExponent?_eq_some_iff.1 hexponent)
    rw [point_value, List.append_assoc, List.cons_append] at hspells
    exact ⟨_, _, rfl, hspells⟩
  · have hhead : ∀ c, rest.head? = some c → digitValue? c = none ∧ c ≠ '.' := fun c hc =>
      ⟨hrest c hc, fun he => hpoint (he ▸ hc)⟩
    rw [unsignedOfChars?_whole hwhole hhead] at h
    split_ifs at h with hne
    obtain ⟨exponent, hexponent, rfl⟩ := Option.map_eq_some_iff.1 h
    exact ⟨_, _, rfl, .mk (.whole hne hwhole) (tailExponent?_eq_some_iff.1 hexponent)⟩

/-- A number without a sign starts with a digit or the point. -/
theorem head_of_spellsUnsigned (h : SpellsUnsigned cs q) :
    ∃ c rest, cs = c :: rest ∧ (c.isDigit = true ∨ c = '.') := by
  cases h with
  | @mk mantissa tail q exponent hmantissa _ =>
    cases hmantissa with
    | whole hne hdigits =>
      obtain ⟨c, rest, rfl⟩ := List.exists_cons_of_ne_nil hne
      exact ⟨c, rest ++ tail, rfl, .inl (hdigits c List.mem_cons_self)⟩
    | @point whole fraction _ hwhole _ =>
      cases whole with
      | nil => exact ⟨'.', fraction ++ tail, rfl, .inr rfl⟩
      | cons c rest =>
        exact ⟨c, rest ++ '.' :: fraction ++ tail, rfl, .inl (hwhole c List.mem_cons_self)⟩

/-! ## Signs -/

theorem toLower_eq_self {c : Char} (h : c.isDigit = true ∨ c = '.') : c.toLower = c := by
  have hlow : ¬(c.val ≥ 'A'.val ∧ c.val ≤ 'Z'.val) := by
    rcases h with h | rfl
    · rw [Char.isDigit_iff_toNat] at h
      simp only [ge_iff_le, UInt32.le_iff_toNat_le]
      have h9 : '9'.toNat = 57 := rfl
      have hA : 'A'.val.toNat = 65 := rfl
      have hc : c.val.toNat = c.toNat := rfl
      omega
    · decide
  unfold Char.toLower
  exact dif_neg hlow

/-- A number has no name. -/
theorem ofList_map_toLower_ne (h : SpellsUnsigned cs q) {name : String} {first : Char}
    (hname : name.toList.head? = some first) (hfirst : ¬(first.isDigit = true ∨ first = '.')) :
    String.ofList (cs.map Char.toLower) ≠ name := by
  rintro rfl
  obtain ⟨c, rest, rfl, hc⟩ := head_of_spellsUnsigned h
  rw [String.toList_ofList, List.map_cons, toLower_eq_self hc, List.head?_cons,
    Option.some_inj] at hname
  exact hfirst (hname ▸ hc)

/-- After its sign, a number is read without it. -/
theorem ofChars?_of_splitSign {body : List Char} {negative : Bool} (h : SpellsUnsigned body q)
    (hsign : splitSign cs = (negative, body)) :
    ofChars? cs = unsignedOfChars? negative body := by
  have hinf : String.ofList (body.map Char.toLower) ≠ "inf" :=
    ofList_map_toLower_ne h rfl (by decide)
  have hinfinity : String.ofList (body.map Char.toLower) ≠ "infinity" :=
    ofList_map_toLower_ne h rfl (by decide)
  have hnan : String.ofList (body.map Char.toLower) ≠ "nan" :=
    ofList_map_toLower_ne h rfl (by decide)
  unfold ofChars?
  simp only [hsign, hinf, hinfinity, hnan, or_self, if_false]

end Numeral

namespace SpellsNumber

variable {cs : List Char} {q r : ℚ} {i : Int}

/-- A number is a sign or none before a number without one. -/
theorem iff_splitSign : SpellsNumber cs q ↔ ∃ negative body r, splitSign cs = (negative, body) ∧
    SpellsUnsigned body r ∧ q = Double.sign negative * r := by
  constructor
  · intro h
    cases h with
    | plain h =>
      obtain ⟨c, rest, hcs, hc⟩ := Numeral.head_of_spellsUnsigned h
      have hne : ∀ mark, ¬(mark.isDigit = true ∨ mark = '.') → cs.head? ≠ some mark := by
        rintro mark hmark hhead
        rw [hcs, List.head?_cons, Option.some_inj] at hhead
        exact hmark (hhead ▸ hc)
      exact ⟨false, cs, q, splitSign_of_head? (hne '-' (by decide)) (hne '+' (by decide)), h,
        (one_mul q).symm⟩
    | plus h => exact ⟨false, _, q, rfl, h, (one_mul q).symm⟩
    | minus h => exact ⟨true, _, _, rfl, h, (neg_one_mul _).symm⟩
  · rintro ⟨negative, body, r, hsign, h, rfl⟩
    rcases splitSign_cases hsign with ⟨rfl, rfl⟩ | ⟨rfl, rfl | rfl⟩
    · exact (neg_one_mul r).symm ▸ .minus h
    · exact (one_mul r).symm ▸ .plus h
    · exact (one_mul r).symm ▸ .plain h

/-- **The reader finds the number** of every text in this notation, as an integer with a power of
ten, and reads no other text as a finite number. -/
theorem iff_ofChars? : SpellsNumber cs q ↔ ∃ negative digits scale,
    Numeral.ofChars? cs = some (.decimal negative digits scale) ∧
      q = signedInt negative digits * 10 ^ scale := by
  rw [iff_splitSign]
  constructor
  · rintro ⟨negative, body, r, hsign, h, rfl⟩
    obtain ⟨digits, scale, hread, rfl⟩ := Numeral.unsignedOfChars?_of_spells h negative
    refine ⟨negative, digits, scale, (Numeral.ofChars?_of_splitSign h hsign).trans hread, ?_⟩
    rw [Double.cast_signedInt, mul_assoc]
  · rintro ⟨negative, digits, scale, hread, rfl⟩
    obtain ⟨minus, body, hsign⟩ : ∃ minus body, splitSign cs = (minus, body) := ⟨_, _, rfl⟩
    unfold Numeral.ofChars? at hread
    simp only [hsign] at hread
    split_ifs at hread
    · cases hread
    · cases hread
    · obtain ⟨_, _, hnumeral, h⟩ := Numeral.spells_of_unsignedOfChars? hread
      cases hnumeral
      exact ⟨negative, body, _, hsign, h, by rw [Double.cast_signedInt, mul_assoc]⟩

/-- **A text spells one number at most.** -/
theorem unique (hq : SpellsNumber cs q) (hr : SpellsNumber cs r) : q = r := by
  obtain ⟨_, _, _, hreadq, rfl⟩ := iff_ofChars?.1 hq
  obtain ⟨_, _, _, hreadr, rfl⟩ := iff_ofChars?.1 hr
  cases hreadq.symm.trans hreadr
  rfl

/-- An integer is a number. -/
theorem of_integer (h : SpellsInteger cs i) : SpellsNumber cs i := by
  have hunsigned : ∀ {digits : List Char}, digits ≠ [] → (∀ c ∈ digits, c.isDigit = true) →
      SpellsUnsigned digits (Nat.ofDigitChars 10 digits 0) := fun hne hdigits => by
    have hspells := SpellsUnsigned.mk (.whole hne hdigits) .absent
    rwa [List.append_nil, zpow_zero, mul_one] at hspells
  cases h with
  | plain hne hdigits => exact_mod_cast plain (hunsigned hne hdigits)
  | plus hne hdigits => exact_mod_cast plus (hunsigned hne hdigits)
  | minus hne hdigits => exact_mod_cast minus (hunsigned hne hdigits)

end SpellsNumber

end RestStore
