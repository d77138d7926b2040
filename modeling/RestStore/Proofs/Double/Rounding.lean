import RestStore.Double.Decimal
import RestStore.Proofs.Double.Nearest

/-!
# Correct rounding

Quotients of natural numbers and decimals are read as the nearest double, or as infinity from the
overflow on, by exact arithmetic: `exists_roundsTo_ofRatio`, `isRounded_ofDecimal`.

* `roundHalfEven_spec` — a quotient rounded to an integer.
* `scaleOf_spec` — the scale at which a quotient has 53 bits, or the least.
* `exists_roundsTo_ofDecimal` — the decimals that are answered without a power of ten are so far
  out that they are zero or infinity anyway.
-/

set_option autoImplicit false

namespace RestStore.Double

/-! ## Integers -/

/-- **A quotient is rounded** to within one half, and to an even integer at one half. -/
theorem roundHalfEven_spec (a : Nat) {b : Nat} (hb : 0 < b) :
    |(a : ℚ) / b - roundHalfEven a b| ≤ 1 / 2 ∧
      (|(a : ℚ) / b - roundHalfEven a b| = 1 / 2 → roundHalfEven a b % 2 = 0) := by
  have hpos : (0 : ℚ) < b := Nat.cast_pos.2 hb
  have hquotient : (a : ℚ) / b = (a / b : Nat) + (a % b : Nat) / b := by
    rw [div_eq_iff hpos.ne', add_mul, div_mul_cancel₀ _ hpos.ne']
    exact_mod_cast (Nat.div_add_mod' a b).symm
  have hnonneg : (0 : ℚ) ≤ (a % b : Nat) / b := by positivity
  have hless : ((a % b : Nat) : ℚ) / b < 1 := by
    rw [div_lt_one hpos]
    exact_mod_cast Nat.mod_lt a hb
  rw [hquotient]
  unfold roundHalfEven
  dsimp only
  split_ifs with hsmall hlarge
  · have hhalf : ((a % b : Nat) : ℚ) / b < 1 / 2 := by
      rw [div_lt_div_iff₀ hpos two_pos]
      exact_mod_cast (by omega : a % b * 2 < 1 * b)
    rw [add_sub_cancel_left, abs_of_nonneg hnonneg]
    exact ⟨hhalf.le, fun heq => absurd heq hhalf.ne⟩
  · have hhalf : 1 / 2 < ((a % b : Nat) : ℚ) / b := by
      rw [div_lt_div_iff₀ two_pos hpos]
      exact_mod_cast (by omega : 1 * b < a % b * 2)
    rw [Nat.cast_add, Nat.cast_one, add_sub_add_left_eq_sub, abs_of_neg (by linarith)]
    exact ⟨by linarith, fun heq => by linarith⟩
  · have hhalf : ((a % b : Nat) : ℚ) / b = 1 / 2 := by
      rw [div_eq_div_iff hpos.ne' two_ne_zero]
      exact_mod_cast (by omega : a % b * 2 = 1 * b)
    rw [hhalf, Nat.cast_add, add_sub_add_left_eq_sub]
    refine ⟨?_, fun _ => by omega⟩
    rcases Nat.mod_two_eq_zero_or_one (a / b) with hmod | hmod <;> rw [hmod] <;> norm_num

/-! ## Scales -/

section

variable {num den : Nat}

/-- A quotient over a power of two, by multiplying on the side where that needs no fraction. -/
theorem scaled_quotient (hden : 0 < den) (scale : Int) :
    (num : ℚ) / den / 2 ^ scale =
      if 0 ≤ scale then (num : ℚ) / (den * twoPow scale.toNat : Nat)
      else ((num * twoPow (-scale).toNat : Nat) : ℚ) / den := by
  have hden' : (den : ℚ) ≠ 0 := Nat.cast_ne_zero.2 hden.ne'
  split_ifs with hscale
  · rw [Nat.cast_mul, cast_twoPow, ← zpow_natCast, Int.toNat_of_nonneg hscale, div_div]
  · rw [Nat.cast_mul, cast_twoPow, ← zpow_natCast, Int.toNat_of_nonneg (by omega), zpow_neg,
      ← div_eq_mul_inv, div_right_comm]

/-- The guess of a scale, from the lengths of numerator and denominator. -/
def guess (num den : Nat) : Int := (Nat.log2 num : Int) - (Nat.log2 den : Int) - 52

/-- The guess is right, or one too high. -/
theorem guess_spec (hnum : 0 < num) (hden : 0 < den) :
    2 ^ 52 * 2 ^ (guess num den - 1) ≤ (num : ℚ) / den ∧
      (num : ℚ) / den < 2 ^ 53 * 2 ^ guess num den := by
  have hguess : guess num den = (Nat.log2 num : Int) - (Nat.log2 den : Int) - 52 := rfl
  have hden' : (0 : ℚ) < den := Nat.cast_pos.2 hden
  have hnumlow : (2 : ℚ) ^ Nat.log2 num ≤ num := by
    exact_mod_cast Nat.log2_self_le hnum.ne'
  have hnumhigh : (num : ℚ) < 2 ^ (Nat.log2 num + 1) := by
    exact_mod_cast Nat.lt_log2_self
  have hdenlow : (2 : ℚ) ^ Nat.log2 den ≤ den := by
    exact_mod_cast Nat.log2_self_le hden.ne'
  have hdenhigh : (den : ℚ) < 2 ^ (Nat.log2 den + 1) := by
    exact_mod_cast Nat.lt_log2_self
  constructor
  · have hpow : (2 : ℚ) ^ 52 * 2 ^ (guess num den - 1) * 2 ^ (Nat.log2 den + 1) =
        2 ^ Nat.log2 num := by
      rw [← zpow_natCast, ← zpow_natCast, ← zpow_natCast, ← zpow_add₀ two_ne_zero,
        ← zpow_add₀ two_ne_zero]
      congr 1
      push_cast
      omega
    rw [le_div_iff₀ hden']
    calc (2 : ℚ) ^ 52 * 2 ^ (guess num den - 1) * den
      _ ≤ 2 ^ 52 * 2 ^ (guess num den - 1) * 2 ^ (Nat.log2 den + 1) := by gcongr
      _ = 2 ^ Nat.log2 num := hpow
      _ ≤ num := hnumlow
  · have hpow : (2 : ℚ) ^ 53 * 2 ^ guess num den * 2 ^ Nat.log2 den = 2 ^ (Nat.log2 num + 1) := by
      rw [← zpow_natCast, ← zpow_natCast, ← zpow_natCast, ← zpow_add₀ two_ne_zero,
        ← zpow_add₀ two_ne_zero]
      congr 1
      push_cast
      omega
    rw [div_lt_iff₀ hden']
    calc (num : ℚ)
      _ < 2 ^ (Nat.log2 num + 1) := hnumhigh
      _ = 2 ^ 53 * 2 ^ guess num den * 2 ^ Nat.log2 den := hpow.symm
      _ ≤ 2 ^ 53 * 2 ^ guess num den * den := by gcongr

/-- The guess is lowered where a comparison of products shows it to be too high. -/
theorem scaleOf_eq (hden : 0 < den) :
    scaleOf num den = max (if (num : ℚ) / den < 2 ^ 52 * 2 ^ guess num den then guess num den - 1
      else guess num den) (-1074) := by
  have hbit : (leadingBit : ℚ) = 2 ^ 52 := by norm_num [leadingBit]
  have hsmall : (if 0 ≤ guess num den then
        decide (num < den * leadingBit * twoPow (guess num den).toNat)
      else decide (num * twoPow (-guess num den).toNat < den * leadingBit)) = true ↔
      (num : ℚ) / den < 2 ^ 52 * 2 ^ guess num den := by
    rw [← div_lt_iff₀ (zpow_pos two_pos _), scaled_quotient hden, ← hbit]
    split_ifs
    · have hpos : (0 : ℚ) < (den * twoPow (guess num den).toNat : Nat) :=
        Nat.cast_pos.2 (Nat.mul_pos hden (twoPow_pos _))
      rw [decide_eq_true_iff, div_lt_iff₀ hpos, ← Nat.cast_mul, Nat.cast_lt, Nat.mul_left_comm,
        Nat.mul_assoc]
    · rw [decide_eq_true_iff, div_lt_iff₀ (Nat.cast_pos.2 hden), ← Nat.cast_mul, Nat.cast_lt,
        Nat.mul_comm den]
  rw [← if_congr hsmall rfl rfl]
  rfl

/-- **The scale of a quotient** is where it has 53 bits, or the least there is. -/
theorem scaleOf_spec (hnum : 0 < num) (hden : 0 < den) :
    -1074 ≤ scaleOf num den ∧
      (scaleOf num den = -1074 ∨ 2 ^ 52 * 2 ^ scaleOf num den ≤ (num : ℚ) / den) ∧
      (num : ℚ) / den < 2 ^ 53 * 2 ^ scaleOf num den := by
  obtain ⟨top, hscale, hlow, hhigh⟩ : ∃ top, scaleOf num den = max top (-1074) ∧
      2 ^ 52 * 2 ^ top ≤ (num : ℚ) / den ∧ (num : ℚ) / den < 2 ^ 53 * 2 ^ top := by
    obtain ⟨hlow, hhigh⟩ := guess_spec hnum hden
    refine ⟨_, scaleOf_eq hden, ?_⟩
    split_ifs with hsmall
    · refine ⟨hlow, hsmall.trans_le (le_of_eq ?_)⟩
      rw [zpow_sub_one₀ two_ne_zero]
      ring
    · exact ⟨not_lt.1 hsmall, hhigh⟩
  rw [hscale]
  refine ⟨le_max_right _ _, ?_, ?_⟩
  · rcases le_total (-1074) top with hle | hle
    · rw [max_eq_left hle]
      exact .inr hlow
    · exact .inl (max_eq_right hle)
  · have hunit : (2 : ℚ) ^ top ≤ 2 ^ max top (-1074) :=
      zpow_le_zpow_right₀ one_le_two (le_max_left _ _)
    linarith

/-- A number below the half of the least double is zero. -/
theorem roundsTo_zero {q : ℚ} (hnonneg : 0 ≤ q) (h : q ≤ 2 ^ (-1075 : Int)) :
    RoundsTo q 0 (-1074) := by
  have hhalf : (2 : ℚ) ^ (-1075 : Int) = 2 ^ (-1074 : Int) / 2 := zpow_sub_one₀ two_ne_zero (-1074)
  have hpos := RoundsTo.unit_pos (-1074)
  refine ⟨hnonneg, le_rfl, .inl rfl, ?_, ?_, fun _ => rfl⟩
  · rw [hhalf] at h
    linarith
  · rw [Nat.cast_zero, zero_mul, sub_zero, abs_of_nonneg hnonneg, ← hhalf]
    exact h

/-- **A quotient is rounded** at its scale. -/
theorem exists_roundsTo_ofRatio (negative : Bool) (num : Nat) (hden : 0 < den) :
    ∃ m scale, RoundsTo ((num : ℚ) / den) m scale ∧
      ofRatio negative num den = ofScaled negative m scale := by
  rcases Nat.eq_zero_or_pos num with rfl | hnum
  · refine ⟨0, -1074, roundsTo_zero (by simp) ?_, rfl⟩
    rw [Nat.cast_zero, zero_div]
    positivity
  obtain ⟨hleast, hlead, hbelow⟩ := scaleOf_spec hnum hden
  obtain ⟨m, hm, hnear, htie⟩ : ∃ m, ofRatio negative num den =
        ofScaled negative m (scaleOf num den) ∧
      |(num : ℚ) / den / 2 ^ scaleOf num den - m| ≤ 1 / 2 ∧
        (|(num : ℚ) / den / 2 ^ scaleOf num den - m| = 1 / 2 → m % 2 = 0) := by
    refine ⟨_, if_neg hnum.ne', ?_⟩
    rw [scaled_quotient hden]
    split_ifs
    · exact roundHalfEven_spec _ (Nat.mul_pos hden (twoPow_pos _))
    · exact roundHalfEven_spec _ hden
  have hpos := RoundsTo.unit_pos (scaleOf num den)
  have hdistance : |(num : ℚ) / den - m * 2 ^ scaleOf num den| =
      |(num : ℚ) / den / 2 ^ scaleOf num den - m| * 2 ^ scaleOf num den := by
    rw [← abs_of_pos hpos, ← abs_mul, abs_of_pos hpos, sub_mul, div_mul_cancel₀ _ hpos.ne']
  refine ⟨m, scaleOf num den, ⟨by positivity, hleast, hlead, hbelow, ?_, fun heq => htie ?_⟩, hm⟩
  · rw [hdistance]
    linarith [mul_le_mul_of_nonneg_right hnear hpos.le]
  · rw [hdistance] at heq
    exact mul_right_cancel₀ hpos.ne' (by linarith)

end

/-! ## Decimals -/

section

variable {digits : Nat} {scale : Int}

/-- A number with `size` digits lies between two powers of ten. -/
theorem toDigits_bounds (hdigits : 0 < digits) :
    (10 : ℚ) ^ (((Nat.toDigits 10 digits).length : Int) - 1) ≤ digits ∧
      (digits : ℚ) < 10 ^ ((Nat.toDigits 10 digits).length : Int) := by
  obtain ⟨size, hsize⟩ : ∃ size, (Nat.toDigits 10 digits).length = size + 1 :=
    Nat.exists_eq_succ_of_ne_zero (List.length_pos_iff.2 Nat.toDigits_ne_nil).ne'
  have hle : ∀ count, 0 < count →
      ((Nat.toDigits 10 digits).length ≤ count ↔ digits < 10 ^ count) := fun count hcount =>
    Nat.length_toDigits_le_iff (by decide) hcount
  have hhigh : digits < 10 ^ (size + 1) := (hle _ (by omega)).1 hsize.le
  have hlow : 10 ^ size ≤ digits := by
    rcases Nat.eq_zero_or_pos size with rfl | hpos
    · exact hdigits
    · exact not_lt.1 fun hlt => by
        have hshort := (hle size hpos).2 hlt
        omega
  rw [hsize, Nat.cast_add, Nat.cast_one, add_sub_cancel_right, zpow_natCast]
  exact ⟨by exact_mod_cast hlow, by exact_mod_cast hhigh⟩

/-- A decimal lies between two powers of ten, by the number of its digits. -/
theorem decimal_bounds (hdigits : 0 < digits) (scale : Int) :
    (10 : ℚ) ^ ((Nat.toDigits 10 digits).length + scale - 1) ≤ digits * 10 ^ scale ∧
      (digits : ℚ) * 10 ^ scale < 10 ^ ((Nat.toDigits 10 digits).length + scale) := by
  have hten : (10 : ℚ) ≠ 0 := by norm_num
  have hpos : (0 : ℚ) < 10 ^ scale := by positivity
  obtain ⟨hlow, hhigh⟩ := toDigits_bounds hdigits
  rw [add_sub_right_comm, zpow_add₀ hten, zpow_add₀ hten]
  exact ⟨by gcongr, by gcongr⟩

/-- A decimal is a quotient of natural numbers. -/
theorem decimal_eq_quotient (digits : Nat) (scale : Int) :
    (digits : ℚ) * 10 ^ scale =
      if 0 ≤ scale then ((digits * tenPow scale.toNat : Nat) : ℚ) / (1 : Nat)
      else (digits : ℚ) / (tenPow (-scale).toNat : Nat) := by
  have hpow : ∀ n : Nat, (tenPow n : ℚ) = 10 ^ n := fun n => by
    unfold tenPow
    rw [Nat.pow_eq, Nat.cast_pow, Nat.cast_ofNat]
  split_ifs
  · rw [Nat.cast_mul, hpow, ← zpow_natCast, Int.toNat_of_nonneg (by omega), Nat.cast_one, div_one]
  · rw [hpow, ← zpow_natCast, Int.toNat_of_nonneg (by omega), zpow_neg, div_inv_eq_mul]

/-- Powers of two and of ten are compared as natural numbers. -/
theorem power_le {bits digits : Nat} (h : 2 ^ bits ≤ 10 ^ digits) :
    (2 : ℚ) ^ (bits : Int) ≤ 10 ^ (digits : Int) := by
  rw [zpow_natCast, zpow_natCast]
  exact_mod_cast h

theorem tiny_power : (10 : ℚ) ^ (-331 : Int) ≤ 2 ^ (-1075 : Int) := by
  have hpower : (2 : ℚ) ^ (1075 : Int) ≤ 10 ^ (331 : Int) := power_le (by decide +kernel)
  rw [zpow_neg, zpow_neg]
  exact inv_anti₀ (zpow_pos two_pos _) hpower

theorem huge_power : overflow ≤ (10 : ℚ) ^ (310 : Int) := by
  have hpower : (2 : ℚ) ^ (1024 : Int) ≤ 10 ^ (310 : Int) := power_le (by decide +kernel)
  have hsplit : (2 : ℚ) ^ (1024 : Int) = 2 ^ 53 * 2 ^ (971 : Int) := zpow_add₀ two_ne_zero 53 971
  calc overflow
    _ ≤ 2 ^ 53 * 2 ^ (971 : Int) :=
      mul_le_mul_of_nonneg_right (by norm_num) (zpow_pos two_pos _).le
    _ = 2 ^ (1024 : Int) := hsplit.symm
    _ ≤ 10 ^ (310 : Int) := hpower

theorem decimal_le_tiny (h : digits = 0 ∨ (Nat.toDigits 10 digits).length + scale < -330) :
    (digits : ℚ) * 10 ^ scale ≤ 2 ^ (-1075 : Int) := by
  rcases Nat.eq_zero_or_pos digits with rfl | hdigits
  · rw [Nat.cast_zero, zero_mul]
    positivity
  · have hsize := h.resolve_left hdigits.ne'
    calc (digits : ℚ) * 10 ^ scale
      _ ≤ 10 ^ ((Nat.toDigits 10 digits).length + scale) := (decimal_bounds hdigits scale).2.le
      _ ≤ 10 ^ (-331 : Int) := zpow_le_zpow_right₀ (by norm_num) (by omega)
      _ ≤ 2 ^ (-1075 : Int) := tiny_power

theorem overflow_le_decimal (hzero : ¬(digits = 0 ∨ (Nat.toDigits 10 digits).length + scale < -330))
    (h : 310 < (Nat.toDigits 10 digits).length + scale) :
    overflow ≤ (digits : ℚ) * 10 ^ scale := by
  have hdigits : 0 < digits := Nat.pos_of_ne_zero fun h => hzero (.inl h)
  calc overflow
    _ ≤ 10 ^ (310 : Int) := huge_power
    _ ≤ 10 ^ ((Nat.toDigits 10 digits).length + scale - 1) :=
      zpow_le_zpow_right₀ (by norm_num) (by omega)
    _ ≤ digits * 10 ^ scale := (decimal_bounds hdigits scale).1

/-- **A decimal is rounded**, also where the answer needs no power of ten. -/
theorem exists_roundsTo_ofDecimal (negative : Bool) (digits : Nat) (scale : Int) :
    ∃ m place, RoundsTo (digits * 10 ^ scale) m place ∧
      ofDecimal negative digits scale = ofScaled negative m place := by
  have hratio : ∃ m place, RoundsTo (digits * 10 ^ scale) m place ∧
      (if 0 ≤ scale then ofRatio negative (digits * tenPow scale.toNat) 1
        else ofRatio negative digits (tenPow (-scale).toNat)) = ofScaled negative m place := by
    rw [decimal_eq_quotient]
    split_ifs
    · exact exists_roundsTo_ofRatio negative _ Nat.one_pos
    · exact exists_roundsTo_ofRatio negative _ (Nat.pow_pos (by decide))
  unfold ofDecimal
  dsimp only
  split_ifs with htiny hhuge hscale
  · refine ⟨0, -1074, roundsTo_zero (by positivity) ?_, rfl⟩
    exact decimal_le_tiny htiny
  · obtain ⟨m, place, h, -⟩ := hratio
    exact ⟨m, place, h, (h.ofScaled_eq_infinity (overflow_le_decimal htiny hhuge) negative).symm⟩
  · rwa [if_pos hscale] at hratio
  · rwa [if_neg hscale] at hratio

/-- **Decimals are read as the nearest double**, or as infinity from the overflow on. -/
theorem isRounded_ofDecimal (negative : Bool) (digits : Nat) (scale : Int) :
    IsRounded (signedInt negative digits * 10 ^ scale) (ofDecimal negative digits scale) := by
  obtain ⟨m, place, hrounds, hread⟩ := exists_roundsTo_ofDecimal negative digits scale
  rw [hread, cast_signedInt, mul_assoc]
  exact hrounds.isRounded negative

end

end RestStore.Double
