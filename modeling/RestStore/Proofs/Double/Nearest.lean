import Mathlib.Algebra.Order.Group.Unbundled.Int
import RestStore.Proofs.Double.Value

/-!
# The nearest double

A number is rounded to the nearest finite double; of two at the same distance the one with the even
significand is taken. `IsNearest` says so about a double and all the others, and `RoundsTo` says it
about the significand alone: the number lies within half a unit of `m · 2 ^ scale`, where the scale
is the one at which it has 53 bits, or the least there is.

* `RoundsTo.closest` — no double is closer than `m · 2 ^ scale`, and of those as close only this one
  is even.
* `RoundsTo.isNearest`, `RoundsTo.value_eq` — so it is the nearest, and its value is the only one.
* `RoundsTo.ofScaled_finite`, `RoundsTo.ofScaled_eq_infinity` — the numbers that are read as
  infinity, and the others.
* `RoundsTo.distance_le` — how far a number can be from the double that it is read as.
* `RoundsTo.ofScaled_of_natCast` — the integers that are read as themselves.
-/

set_option autoImplicit false

namespace RestStore.Double

/-- The finite double nearest to a number, with the even significand if there are two. -/
structure IsNearest (q : ℚ) (x : Double) : Prop where
  finite : x.isFinite = true
  nearest : ∀ y : Double, y.isFinite = true → |q - x.value| ≤ |q - y.value|
  even : ∀ y : Double, y.isFinite = true → |q - y.value| = |q - x.value| → y.value ≠ x.value →
    x.significand % 2 = 0

/-- A number that is not negative lies within half a unit of `m · 2 ^ scale`, at half a unit only if
`m` is even; the scale is where it has 53 bits, or the least there is. -/
structure RoundsTo (q : ℚ) (m : Nat) (scale : Int) : Prop where
  nonneg : 0 ≤ q
  least : -1074 ≤ scale
  lead : scale = -1074 ∨ 2 ^ 52 * 2 ^ scale ≤ q
  below : q < 2 ^ 53 * 2 ^ scale
  near : |q - m * 2 ^ scale| ≤ 2 ^ scale / 2
  tie : |q - m * 2 ^ scale| = 2 ^ scale / 2 → m % 2 = 0

/-- Numbers from here on are read as infinity: half a unit beyond the largest finite double. -/
def overflow : ℚ := (2 ^ 53 - 1 / 2) * 2 ^ (971 : Int)

theorem overflow_pos : 0 < overflow := by
  unfold overflow
  positivity

/-- How a number is read: as the nearest double, or as infinity from the overflow on. -/
def IsRounded (q : ℚ) (x : Double) : Prop :=
  if |q| < overflow then IsNearest q x else x = infinity (decide (q < 0))

/-- The double of a significand at a scale, or infinity where the exponent bits run out. -/
def ofScaled (negative : Bool) (m : Nat) (scale : Int) : Double :=
  ofMagnitude negative (min ((scale + 1074).toNat * leadingBit + m) infinityBits)

/-! ## Multiples of a unit -/

section

variable {q unit : ℚ}

/-- **Within half a unit of a multiple no other multiple is closer**, and one as close is the
neighbour behind half a unit. -/
theorem multiple_closest {m : Int} (hunit : 0 < unit) (h : |q - m * unit| ≤ unit / 2) (k : Int) :
    |q - m * unit| ≤ |q - k * unit| ∧
      (|q - k * unit| = |q - m * unit| → k ≠ m → |q - m * unit| = unit / 2 ∧ |k - m| = 1) := by
  by_cases hkm : k = m
  · subst hkm
    exact ⟨le_rfl, fun _ hne => absurd rfl hne⟩
  · have hstep : 1 ≤ |k - m| := Int.one_le_abs (sub_ne_zero.2 hkm)
    have hstep' : (1 : ℚ) ≤ |(k : ℚ) - m| := by exact_mod_cast hstep
    have hapart : |(k : ℚ) - m| * unit ≤ |q - m * unit| + |q - k * unit| := by
      have htriangle := abs_sub_le ((k : ℚ) * unit) q (m * unit)
      rw [← sub_mul, abs_mul, abs_of_pos hunit, abs_sub_comm ((k : ℚ) * unit)] at htriangle
      linarith
    have hmore : unit ≤ |(k : ℚ) - m| * unit := le_mul_of_one_le_left hunit.le hstep'
    refine ⟨by linarith, fun heq _ => ⟨by linarith, ?_⟩⟩
    have hone : |(k : ℚ) - m| ≤ 1 := le_of_mul_le_mul_right (by linarith) hunit
    have hone' : |k - m| ≤ 1 := by exact_mod_cast hone
    omega

end

namespace RoundsTo

variable {q : ℚ} {m : Nat} {scale : Int}

theorem unit_pos (scale : Int) : (0 : ℚ) < 2 ^ scale := zpow_pos two_pos scale

/-- The significand has at most 53 bits, but for a carry. -/
theorem significand_le (h : RoundsTo q m scale) : m ≤ 2 ^ 53 := by
  have hnear := (abs_le.1 h.near).1
  have hlt : (m : ℚ) * 2 ^ scale < (2 ^ 53 + 1) * 2 ^ scale := by
    have hbelow := h.below
    have hpos := unit_pos scale
    linarith
  have hlt' : (m : ℚ) < 2 ^ 53 + 1 := lt_of_mul_lt_mul_right hlt (unit_pos scale).le
  exact Nat.lt_succ_iff.1 (by exact_mod_cast hlt')

/-- It has 53 bits, except at the least scale. -/
theorem le_significand (h : RoundsTo q m scale) : scale = -1074 ∨ 2 ^ 52 ≤ m := by
  refine h.lead.imp_right fun hlead => ?_
  have hnear := (abs_le.1 h.near).2
  have hlt : (2 ^ 52 : ℚ) * 2 ^ scale < (m + 1) * 2 ^ scale := by
    have hpos := unit_pos scale
    linarith
  have hlt' : (2 ^ 52 : ℚ) < m + 1 := lt_of_mul_lt_mul_right hlt (unit_pos scale).le
  exact Nat.lt_succ_iff.1 (by exact_mod_cast hlt')

/-- **No double is closer**, and one as close with another value has an odd significand, while `m`
is even: a coarser double is a multiple of the unit, and a finer one lies below `2 ^ 52` units. -/
theorem closest (h : RoundsTo q m scale) (negative : Bool) (y : Double) :
    |q - m * 2 ^ scale| ≤ |q - sign negative * y.value| ∧
      (|q - sign negative * y.value| = |q - m * 2 ^ scale| →
        sign negative * y.value ≠ m * 2 ^ scale → m % 2 = 0 ∧ y.significand % 2 ≠ 0) := by
  have hpos := unit_pos scale
  have hmultiple := multiple_closest (m := (m : Int)) hpos (by exact_mod_cast h.near)
  rw [Int.cast_natCast] at hmultiple
  rcases grid_cases y scale with ⟨k, hk, heven⟩ | ⟨hscale, hsmall⟩
  · obtain ⟨j, hj, hparity⟩ : ∃ j : Int, sign negative * y.value = j * 2 ^ scale ∧
        (y.significand % 2 = 0 → j % 2 = 0) := by
      cases negative with
      | false => exact ⟨k, by rw [sign, if_neg Bool.false_ne_true, one_mul, hk], heven⟩
      | true =>
        refine ⟨-k, by rw [sign, if_pos rfl, hk]; push_cast; ring, fun hy => ?_⟩
        have hk0 := heven hy
        omega
    obtain ⟨hle, htie⟩ := hmultiple j
    rw [hj]
    refine ⟨hle, fun heq hne => ?_⟩
    have hjm : j ≠ m := fun he => hne (by rw [he, Int.cast_natCast])
    obtain ⟨hhalf, hstep⟩ := htie heq hjm
    have hm := h.tie hhalf
    refine ⟨hm, fun hy => ?_⟩
    have hj0 := hparity hy
    rcases (abs_eq zero_le_one).1 hstep with hstep | hstep <;> omega
  · have hlead := h.lead.resolve_left (by omega)
    have hbelow : sign negative * y.value < 2 ^ 52 * 2 ^ scale := by
      rw [← abs_sign_mul negative] at hsmall
      exact (le_abs_self _).trans_lt hsmall
    have hpower := (hmultiple (2 ^ 52)).1
    rw [Int.cast_pow, Int.cast_ofNat] at hpower
    rw [abs_of_nonneg (by linarith : 0 ≤ q - 2 ^ 52 * 2 ^ scale)] at hpower
    have hstrict : |q - m * 2 ^ scale| < |q - sign negative * y.value| := by
      rw [abs_of_pos (by linarith : 0 < q - sign negative * y.value)]
      linarith
    exact ⟨hstrict.le, fun heq => absurd heq hstrict.ne'⟩

/-! ## Infinity -/

/-- The unit of a larger scale is at least twice as large. -/
theorem unit_mul_two_le {scale next : Int} (h : scale < next) : (2 : ℚ) ^ scale * 2 ≤ 2 ^ next := by
  rw [← zpow_add_one₀ two_ne_zero]
  exact zpow_le_zpow_right₀ one_le_two h

/-- The finite doubles end with the scale 971. -/
theorem bits_lt (h : RoundsTo q m scale) (hq : q < overflow) :
    (scale + 1074).toNat * leadingBit + m < infinityBits := by
  have hm := h.significand_le
  have hpos := unit_pos 971
  unfold overflow at hq
  have hscale : scale ≤ 971 := by
    by_contra hlarge
    have hlead := h.lead.resolve_left (by omega)
    have hunit := unit_mul_two_le (not_le.1 hlarge)
    generalize (2 : ℚ) ^ (971 : Int) = unit at *
    linarith
  have hcarry : scale = 971 → m ≠ 2 ^ 53 := by
    rintro rfl rfl
    have hnear := (abs_le.1 h.near).1
    rw [Nat.cast_pow, Nat.cast_ofNat] at hnear
    generalize (2 : ℚ) ^ (971 : Int) = unit at *
    linarith
  unfold leadingBit infinityBits
  by_cases hlast : scale = 971
  · have hm' := hcarry hlast
    omega
  · omega

/-- From the overflow on the bits are those of infinity, or beyond. -/
theorem infinityBits_le (h : RoundsTo q m scale) (hq : overflow ≤ q) :
    infinityBits ≤ (scale + 1074).toNat * leadingBit + m := by
  have hpos := unit_pos 971
  unfold overflow at hq
  have hscale : 971 ≤ scale := by
    by_contra hsmall
    have hbelow := h.below
    have hunit := unit_mul_two_le (not_le.1 hsmall)
    generalize (2 : ℚ) ^ (971 : Int) = unit at *
    linarith
  have hm := h.le_significand.resolve_left (by omega)
  have hcarry : scale = 971 → 2 ^ 53 ≤ m := by
    rintro rfl
    by_contra hless
    have hnear := (abs_le.1 h.near).2
    have hunits : (2 ^ 53 : ℚ) * 2 ^ (971 : Int) ≤ (m + 1) * 2 ^ (971 : Int) := by
      generalize (2 : ℚ) ^ (971 : Int) = unit at *
      linarith
    have hnat : 2 ^ 53 ≤ m + 1 := by exact_mod_cast le_of_mul_le_mul_right hunits hpos
    have hodd : m + 1 = 2 ^ 53 := by omega
    have hm' : (m : ℚ) = 2 ^ 53 - 1 := eq_sub_of_add_eq (by exact_mod_cast hodd)
    have hhalf : |q - m * 2 ^ (971 : Int)| = 2 ^ (971 : Int) / 2 := by
      rw [hm'] at hnear ⊢
      generalize (2 : ℚ) ^ (971 : Int) = unit at *
      rw [abs_of_nonneg (by linarith)]
      linarith
    have heven := h.tie hhalf
    omega
  unfold leadingBit infinityBits
  by_cases hlast : scale = 971
  · have hm' := hcarry hlast
    omega
  · omega

/-! ## The nearest double -/

/-- Below the overflow the double is finite and has the value. -/
theorem ofScaled_finite (h : RoundsTo q m scale) (hq : q < overflow) (negative : Bool) :
    (ofScaled negative m scale).isFinite = true ∧
      (ofScaled negative m scale).value = sign negative * (m * 2 ^ scale) ∧
      (m % 2 = 0 → (ofScaled negative m scale).significand % 2 = 0) := by
  have hbits := h.bits_lt hq
  have hweight : infinityBits < signWeight := by decide
  have hof : ofScaled negative m scale =
      ofMagnitude negative ((scale + 1074).toNat * leadingBit + m) := by
    rw [ofScaled, min_eq_left hbits.le]
  have hmagnitude := magnitude_ofMagnitude negative (hbits.trans hweight)
  obtain ⟨hvalue, heven⟩ := scaled_eq h.least h.significand_le h.le_significand hmagnitude
  rw [hof, value, isNegative_ofMagnitude negative (hbits.trans hweight), hvalue]
  exact ⟨isFinite_ofMagnitude negative hbits, rfl, heven⟩

theorem ofScaled_eq_infinity (h : RoundsTo q m scale) (hq : overflow ≤ q) (negative : Bool) :
    ofScaled negative m scale = infinity negative := by
  rw [ofScaled, min_eq_right (h.infinityBits_le hq), infinity]

theorem distance_ofScaled (h : RoundsTo q m scale) (hq : q < overflow) (negative : Bool) :
    |sign negative * q - (ofScaled negative m scale).value| = |q - m * 2 ^ scale| := by
  rw [(h.ofScaled_finite hq negative).2.1, abs_sign_mul_sub, ← mul_assoc, sign_mul_self, one_mul]

/-- **The double is the nearest.** -/
theorem isNearest (h : RoundsTo q m scale) (hq : q < overflow) (negative : Bool) :
    IsNearest (sign negative * q) (ofScaled negative m scale) := by
  obtain ⟨hfinite, hvalue, heven⟩ := h.ofScaled_finite hq negative
  refine ⟨hfinite, fun y _ => ?_, fun y _ heq hne => ?_⟩
  · rw [h.distance_ofScaled hq, abs_sign_mul_sub]
    exact (h.closest negative y).1
  · rw [h.distance_ofScaled hq, abs_sign_mul_sub] at heq
    refine heven ((h.closest negative y).2 heq fun hy => hne ?_).1
    rw [hvalue, ← hy, ← mul_assoc, sign_mul_self, one_mul]

/-- **Every nearest double has its value**: of two as near, both would be even. -/
theorem value_eq (h : RoundsTo q m scale) (hq : q < overflow) {negative : Bool} {x : Double}
    (hx : IsNearest (sign negative * q) x) : x.value = (ofScaled negative m scale).value := by
  have hz := h.isNearest hq negative
  by_contra hne
  have heq := le_antisymm (hz.nearest x hx.finite) (hx.nearest _ hz.finite)
  have heven := hx.even _ hz.finite heq (Ne.symm hne)
  rw [h.distance_ofScaled hq, abs_sign_mul_sub] at heq
  refine ((h.closest negative x).2 heq.symm fun hvalue => hne ?_).2 heven
  rw [(h.ofScaled_finite hq negative).2.1, ← hvalue, ← mul_assoc, sign_mul_self, one_mul]

/-- **The double is how the number is read.** -/
theorem isRounded (h : RoundsTo q m scale) (negative : Bool) :
    IsRounded (sign negative * q) (ofScaled negative m scale) := by
  unfold IsRounded
  rw [abs_sign_mul, abs_of_nonneg h.nonneg]
  split
  · rename_i hq
    exact h.isNearest hq negative
  · rename_i hq
    have hpos : 0 < q := overflow_pos.trans_le (not_lt.1 hq)
    rw [h.ofScaled_eq_infinity (not_lt.1 hq)]
    congr 1
    cases negative <;> simp [sign, hpos, hpos.le]

/-- **Every finite double that the number is read as has its value.** -/
theorem value_eq_of_isRounded (h : RoundsTo q m scale) {negative : Bool} {x : Double}
    (hx : IsRounded (sign negative * q) x) (hfinite : x.isFinite = true) :
    (ofScaled negative m scale).isFinite = true ∧
      x.value = (ofScaled negative m scale).value := by
  unfold IsRounded at hx
  rw [abs_sign_mul, abs_of_nonneg h.nonneg] at hx
  split at hx
  · rename_i hq
    exact ⟨(h.isNearest hq negative).finite, h.value_eq hq hx⟩
  · rw [hx, not_isFinite_infinity] at hfinite
    cases hfinite

/-! ## Distances -/

/-- **How far the double can be**: a part in `2 ^ 53` of it, or half of the least double. -/
theorem error_le (h : RoundsTo q m scale) :
    |q - m * 2 ^ scale| ≤ max ((m : ℚ) * 2 ^ scale / 2 ^ 53) (2 ^ (-1075 : Int)) := by
  refine h.near.trans ?_
  rcases h.le_significand with rfl | hm
  · exact le_max_of_le_right (zpow_sub_one₀ two_ne_zero (-1074)).symm.le
  · refine le_max_of_le_left ?_
    have hm' : (2 ^ 52 : ℚ) ≤ m := by exact_mod_cast hm
    have hunits := mul_le_mul_of_nonneg_right hm' (unit_pos scale).le
    rw [le_div_iff₀ (by positivity)]
    linarith

/-- **How far every finite double is** that a number is read as. -/
theorem distance_le (h : RoundsTo q m scale) {negative : Bool} {x : Double}
    (hx : IsRounded (sign negative * q) x) (hfinite : x.isFinite = true) :
    |sign negative * q - x.value| ≤ max (|x.value| / 2 ^ 53) (2 ^ (-1075 : Int)) := by
  obtain ⟨hscaled, hvalue⟩ := h.value_eq_of_isRounded hx hfinite
  have hq : q < overflow := by
    by_contra hlarge
    rw [h.ofScaled_eq_infinity (not_lt.1 hlarge), not_isFinite_infinity] at hscaled
    cases hscaled
  have hsize : |x.value| = m * 2 ^ scale := by
    rw [hvalue, (h.ofScaled_finite hq negative).2.1, abs_sign_mul, abs_of_nonneg (by positivity)]
  rw [hsize, hvalue, h.distance_ofScaled hq]
  exact h.error_le

/-- A multiple of the unit is the value itself. -/
theorem eq_of_multiple (h : RoundsTo q m scale) {k : Int} (hk : q = k * 2 ^ scale) :
    (m * 2 ^ scale : ℚ) = q := by
  have hclosest := (multiple_closest (m := (m : Int)) (unit_pos scale)
    (by exact_mod_cast h.near) k).1
  rw [← hk, sub_self, abs_zero, Int.cast_natCast] at hclosest
  exact (sub_eq_zero.1 (abs_nonpos_iff.1 hclosest)).symm

/-- The integers of at most 53 bits are doubles. -/
theorem eq_of_natCast {n : Nat} (h : RoundsTo n m scale) (hn : n < 2 ^ 53) :
    (m * 2 ^ scale : ℚ) = n := by
  have hscale : scale ≤ 0 := by
    by_contra hpos
    have hlead := h.lead.resolve_left (by omega)
    have hunit := unit_mul_two_le (not_le.1 hpos)
    have hn' : (n : ℚ) < 2 ^ 53 := by exact_mod_cast hn
    rw [zpow_zero] at hunit
    linarith
  have hpow : (2 : ℚ) ^ (-scale).toNat * 2 ^ scale = 1 := by
    rw [← zpow_natCast, Int.toNat_of_nonneg (by omega), ← zpow_add₀ two_ne_zero, neg_add_cancel,
      zpow_zero]
  refine h.eq_of_multiple (k := n * 2 ^ (-scale).toNat) ?_
  push_cast
  rw [mul_assoc, hpow, mul_one]

/-- **An integer of at most 53 bits is read as itself.** -/
theorem ofScaled_of_natCast {n : Nat} (h : RoundsTo n m scale) (hn : n < 2 ^ 53)
    (negative : Bool) : (ofScaled negative m scale).isFinite = true ∧
      (ofScaled negative m scale).value = sign negative * n := by
  have hless : (n : ℚ) < overflow := by
    have hn' : (n : ℚ) + 1 ≤ 2 ^ 53 := by exact_mod_cast hn
    have hunit : (1 : ℚ) ≤ 2 ^ (971 : Int) := one_le_zpow₀ one_le_two (by decide)
    unfold overflow
    generalize (2 : ℚ) ^ (971 : Int) = unit at *
    linarith
  obtain ⟨hfinite, hvalue, -⟩ := h.ofScaled_finite hless negative
  exact ⟨hfinite, by rw [hvalue, h.eq_of_natCast hn]⟩

end RoundsTo

end RestStore.Double
