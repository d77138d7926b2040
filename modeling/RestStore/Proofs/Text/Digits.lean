import RestStore.Text.Digits

/-!
# Padded numbers

A number written with leading zeros is read back from exactly as many digits as were written:
`spanUpTo_paddedNat`, `natOfDigits_paddedNat`.
-/

set_option autoImplicit false

namespace RestStore

/-- The values of digits. -/
def digitValues (cs : List Char) : List Nat := cs.map fun c => c.toNat - '0'.toNat

theorem digitValue?_of_isDigit {c : Char} (h : c.isDigit = true) :
    digitValue? c = some (c.toNat - '0'.toNat) := by
  rw [Char.isDigit_iff_toNat] at h
  unfold digitValue?
  rw [if_pos (by simpa [Char.le_def, UInt32.le_iff_toNat_le] using h)]

theorem digitValue?_of_not_isDigit {c : Char} (h : ¬c.isDigit = true) : digitValue? c = none := by
  rw [Char.isDigit_iff_toNat] at h
  unfold digitValue?
  rw [if_neg (by simpa [Char.le_def, UInt32.le_iff_toNat_le] using h)]

theorem spanUpTo_of_isDigit : ∀ {cs : List Char} (rest : List Char),
    (∀ c ∈ cs, c.isDigit = true) → spanUpTo cs.length (cs ++ rest) = (digitValues cs, rest)
  | [], rest, _ => by cases rest <;> rfl
  | c :: cs, rest, h => by
    have hcs : ∀ d ∈ cs, d.isDigit = true := fun d hd => h d (List.mem_cons_of_mem _ hd)
    have ih := spanUpTo_of_isDigit rest hcs
    rw [List.length_cons, List.cons_append, spanUpTo,
      digitValue?_of_isDigit (h c List.mem_cons_self)]
    simp only [ih]
    rfl

theorem spanDigits_of_isDigit : ∀ {cs : List Char} {rest : List Char},
    (∀ c ∈ cs, c.isDigit = true) → (∀ c, rest.head? = some c → digitValue? c = none) →
      spanDigits (cs ++ rest) = (digitValues cs, rest)
  | [], [], _, _ => rfl
  | [], c :: rest, _, hr => by
    rw [List.nil_append, spanDigits, hr c rfl]
    rfl
  | c :: cs, rest, h, hr => by
    have hcs : ∀ d ∈ cs, d.isDigit = true := fun d hd => h d (List.mem_cons_of_mem _ hd)
    have ih := spanDigits_of_isDigit hcs hr
    rw [List.cons_append, spanDigits, digitValue?_of_isDigit (h c List.mem_cons_self)]
    simp only [ih]
    rfl

/-- Every text begins with its digits, if there are any. -/
theorem exists_digits_append : ∀ cs : List Char, ∃ digits rest, cs = digits ++ rest ∧
    (∀ c ∈ digits, c.isDigit = true) ∧ ∀ c, rest.head? = some c → digitValue? c = none
  | [] => ⟨[], [], rfl, nofun, nofun⟩
  | c :: cs => by
    obtain ⟨digits, rest, rfl, hdigits, hrest⟩ := exists_digits_append cs
    by_cases hc : c.isDigit = true
    · exact ⟨c :: digits, rest, rfl, List.forall_mem_cons.2 ⟨hc, hdigits⟩, hrest⟩
    · refine ⟨[], c :: (digits ++ rest), rfl, nofun, fun d hd => ?_⟩
      obtain rfl : c = d := Option.some_inj.1 hd
      exact digitValue?_of_not_isDigit hc

theorem natOfDigits_values (cs : List Char) :
    natOfDigits (digitValues cs) = Nat.ofDigitChars 10 cs 0 := by
  unfold natOfDigits digitValues
  rw [List.foldl_map, Nat.ofDigitChars_eq_foldl]

/-! ## Padding -/

theorem isDigit_of_mem_paddedNat {width n : Nat} {c : Char} (h : c ∈ paddedNat width n) :
    c.isDigit = true := by
  unfold paddedNat at h
  rcases List.mem_append.1 h with hz | hd
  · rw [(List.mem_replicate.1 hz).2]
    rfl
  · exact Nat.isDigit_of_mem_toDigits (by decide) (by decide) hd

theorem length_paddedNat {width n : Nat} (hw : 0 < width) (h : n < tenPow width) :
    (paddedNat width n).length = width := by
  have hle := (Nat.length_toDigits_le_iff (b := 10) (by decide) hw).2 h
  unfold paddedNat
  rw [List.length_append, List.length_replicate]
  omega

theorem natOfDigits_paddedNat (width n : Nat) :
    natOfDigits (digitValues (paddedNat width n)) = n := by
  rw [natOfDigits_values]
  unfold paddedNat
  rw [Nat.ofDigitChars_append, Nat.ofDigitChars_replicate_zero, Nat.mul_zero,
    Nat.ofDigitChars_ten_toDigits]

/-- **A padded number is read back from its width.** -/
theorem spanUpTo_paddedNat {width n : Nat} (hw : 0 < width) (h : n < tenPow width)
    (rest : List Char) :
    spanUpTo width (paddedNat width n ++ rest) = (digitValues (paddedNat width n), rest) := by
  have hdigits : ∀ c ∈ paddedNat width n, c.isDigit = true := fun _ => isDigit_of_mem_paddedNat
  have hspan := spanUpTo_of_isDigit rest hdigits
  rwa [length_paddedNat hw h] at hspan

end RestStore
