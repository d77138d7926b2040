import Mathlib.Algebra.Order.Field.Power
import Mathlib.Algebra.Order.Ring.Rat
import Mathlib.Data.Nat.Cast.Field
import Mathlib.Tactic.Linarith
import Mathlib.Tactic.Positivity
import Mathlib.Tactic.Ring
import RestStore.Proofs.Double.Order
import RestStore.Text.Digits

/-!
# Values of doubles

A finite double is the rational number `± significand · 2 ^ exponent`. The exact integers among the
doubles are those whose value is one: `toInt?_eq_some_iff`.

* `value` — the number; `significand_lt`, `le_exponent` — the range of its parts.
* `scaled_eq` — which magnitude bits stand for `m · 2 ^ scale`, with a carry into the exponent.
* `grid_cases` — of two scales, the finer one is for smaller numbers only.
-/

set_option autoImplicit false

namespace RestStore.Double

/-- The factor of a sign. -/
def sign (negative : Bool) : ℚ := if negative then -1 else 1

/-- The number that a finite double stands for. -/
def value (x : Double) : ℚ := sign x.isNegative * (x.significand * 2 ^ x.exponent)

/-! ## Signs -/

theorem sign_mul_self (negative : Bool) : sign negative * sign negative = 1 := by
  cases negative <;> norm_num [sign]

theorem abs_sign_mul (negative : Bool) (q : ℚ) : |sign negative * q| = |q| := by
  cases negative <;> simp [sign]

/-- A sign moves to the other side of a distance. -/
theorem abs_sign_mul_sub (negative : Bool) (q r : ℚ) :
    |sign negative * q - r| = |q - sign negative * r| := by
  have hout : sign negative * q - r = sign negative * (q - sign negative * r) := by
    rw [mul_sub, ← mul_assoc, sign_mul_self, one_mul]
  rw [hout, abs_sign_mul]

theorem isNegative_ofMagnitude (negative : Bool) {magnitude : Nat} (h : magnitude < signWeight) :
    (ofMagnitude negative magnitude).isNegative = negative := by
  unfold signWeight at h
  unfold isNegative ofMagnitude signWeight
  rw [UInt64.toNat_ofNat']
  cases negative with
  | true =>
    rw [if_pos rfl, decide_eq_true_iff]
    omega
  | false =>
    rw [if_neg Bool.false_ne_true, decide_eq_false_iff_not]
    omega

/-! ## Parts -/

theorem significand_lt (x : Double) : x.significand < 2 ^ 53 := by
  unfold significand leadingBit
  dsimp only
  split <;> omega

theorem le_exponent (x : Double) : -1074 ≤ x.exponent := by
  unfold exponent
  omega

theorem isFinite_ofMagnitude (negative : Bool) {magnitude : Nat} (h : magnitude < infinityBits) :
    (ofMagnitude negative magnitude).isFinite = true := by
  unfold isFinite
  rw [magnitude_ofMagnitude negative (h.trans (by decide)), decide_eq_true_iff]
  exact h

theorem not_isFinite_infinity (negative : Bool) : (infinity negative).isFinite = false := by
  cases negative <;> decide

theorem cast_twoPow (n : Nat) : (twoPow n : ℚ) = 2 ^ n := by
  unfold twoPow
  rw [Nat.pow_eq, Nat.cast_pow, Nat.cast_ofNat]

/-! ## Exact integers -/

theorem cast_signedInt (negative : Bool) (n : Nat) :
    (signedInt negative n : ℚ) = sign negative * n := by
  cases negative <;> simp [signedInt, sign]

/-- A quotient with a sign is an integer only where the denominator divides the numerator. -/
theorem dvd_of_sign_mul_div_eq {negative : Bool} {n unit : Nat} {i : Int} (hunit : 0 < unit)
    (h : sign negative * ((n : ℚ) / unit) = i) : unit ∣ n := by
  have hpos : (0 : ℚ) < unit := Nat.cast_pos.2 hunit
  have habs : (n : ℚ) / unit = |(i : ℚ)| := by
    rw [← h, abs_sign_mul, abs_of_nonneg (by positivity)]
  have hmul : (n : ℚ) = (i.natAbs * unit : Nat) := by
    rw [Nat.cast_mul, Nat.cast_natAbs, Int.cast_abs, ← habs, div_mul_cancel₀ _ hpos.ne']
  exact ⟨i.natAbs, by rw [Nat.cast_injective hmul, Nat.mul_comm]⟩

/-- **A double is an exact integer** when it is finite and its value is that integer. -/
theorem toInt?_eq_some_iff {x : Double} {i : Int} :
    x.toInt? = some i ↔ x.isFinite = true ∧ x.value = i := by
  have hsigned : ∀ n : Nat, some (signedInt x.isNegative n) = some i ↔
      sign x.isNegative * (n : ℚ) = i := fun n => by
    rw [Option.some_inj, ← cast_signedInt, Int.cast_inj]
  unfold toInt?
  cases hfinite : x.isFinite with
  | false => exact iff_of_false nofun (fun h => Bool.false_ne_true h.1)
  | true =>
    rw [Bool.not_true, if_neg Bool.false_ne_true, and_iff_right rfl]
    by_cases hexp : 0 ≤ x.exponent
    · have hpow : (2 : ℚ) ^ x.exponent = twoPow x.exponent.toNat := by
        rw [cast_twoPow, ← zpow_natCast, Int.toNat_of_nonneg hexp]
      rw [if_pos hexp, value, hpow, ← Nat.cast_mul]
      exact hsigned _
    · have hpow : (2 : ℚ) ^ x.exponent = (twoPow (-x.exponent).toNat : ℚ)⁻¹ := by
        rw [cast_twoPow, ← zpow_natCast, Int.toNat_of_nonneg (by omega), zpow_neg, inv_inv]
      have hunit : 0 < twoPow (-x.exponent).toNat := twoPow_pos _
      rw [if_neg hexp, value, hpow, ← div_eq_mul_inv]
      by_cases hdvd : twoPow (-x.exponent).toNat ∣ x.significand
      · rw [if_pos (Nat.mod_eq_zero_of_dvd hdvd), ← Nat.cast_div hdvd (by positivity)]
        exact hsigned _
      · rw [if_neg fun hmod => hdvd (Nat.dvd_of_mod_eq_zero hmod)]
        exact iff_of_false nofun fun h => hdvd (dvd_of_sign_mul_div_eq hunit h)

/-! ## Scales -/

/-- The exponent bits and the fraction bits give the parts. -/
theorem parts_of_magnitude {x : Double} {field fraction : Nat}
    (hx : x.magnitude = field * leadingBit + fraction) (hfraction : fraction < leadingBit) :
    x.significand = (if field = 0 then fraction else leadingBit + fraction) ∧
      x.exponent = (max field 1 : Nat) - 1075 := by
  have hdiv : x.magnitude / leadingBit = field := by
    unfold leadingBit at *
    omega
  have hmod : x.magnitude % leadingBit = fraction := by
    unfold leadingBit at *
    omega
  unfold significand exponent
  rw [hdiv, hmod]
  exact ⟨rfl, rfl⟩

/-- **The bits of `m · 2 ^ scale`** for a significand of at most 53 bits: where it carries into a
54th bit, the exponent bits take the carry, and the double is the same number. -/
theorem scaled_eq {x : Double} {m : Nat} {scale : Int} (hscale : -1074 ≤ scale) (hm : m ≤ 2 ^ 53)
    (hlead : scale = -1074 ∨ 2 ^ 52 ≤ m)
    (hx : x.magnitude = (scale + 1074).toNat * leadingBit + m) :
    (x.significand : ℚ) * 2 ^ x.exponent = m * 2 ^ scale ∧
      (m % 2 = 0 → x.significand % 2 = 0) := by
  have hbit : leadingBit = 2 ^ 52 := rfl
  by_cases hsub : m < 2 ^ 52
  · obtain rfl : scale = -1074 := hlead.resolve_right (by omega)
    have hbits : x.magnitude = 0 * leadingBit + m := by
      rw [hx, hbit]
      omega
    obtain ⟨hsig, hexp⟩ := parts_of_magnitude hbits hsub
    rw [hsig, hexp]
    exact ⟨rfl, id⟩
  by_cases hcarry : m = 2 ^ 53
  · have hbits : x.magnitude = (scale + 1076).toNat * leadingBit + 0 := by
      rw [hx, hbit]
      omega
    obtain ⟨hsig, hexp⟩ := parts_of_magnitude hbits (by decide)
    have hscale' : ((max (scale + 1076).toNat 1 : Nat) : Int) - 1075 = scale + 1 := by omega
    rw [hsig, hexp, if_neg (by omega), hscale', hcarry, hbit, zpow_add_one₀ two_ne_zero]
    refine ⟨?_, fun _ => rfl⟩
    push_cast
    ring
  · have hbits : x.magnitude = (scale + 1075).toNat * leadingBit + (m - leadingBit) := by
      rw [hx, hbit]
      omega
    obtain ⟨hsig, hexp⟩ := parts_of_magnitude hbits (by omega)
    have hscale' : ((max (scale + 1075).toNat 1 : Nat) : Int) - 1075 = scale := by omega
    have hm' : leadingBit + (m - leadingBit) = m := by omega
    rw [hsig, hexp, if_neg (by omega), hscale', hm']
    exact ⟨rfl, id⟩

/-- **Of two scales the finer one is for smaller numbers**: a finite double is a multiple of a
power of two, or its exponent is smaller, and then so is the number. -/
theorem grid_cases (x : Double) (scale : Int) :
    (∃ k : Int, x.value = k * 2 ^ scale ∧ (x.significand % 2 = 0 → k % 2 = 0)) ∨
      (-1074 < scale ∧ |x.value| < 2 ^ 52 * 2 ^ scale) := by
  have htwo : (2 : ℚ) ≠ 0 := two_ne_zero
  rcases le_or_gt scale x.exponent with hle | hlt
  · refine .inl ⟨signedInt x.isNegative (x.significand * 2 ^ (x.exponent - scale).toNat), ?_, ?_⟩
    · have hpow : (2 : ℚ) ^ x.exponent = 2 ^ (x.exponent - scale).toNat * 2 ^ scale := by
        rw [← zpow_natCast, Int.toNat_of_nonneg (by omega), ← zpow_add₀ htwo, sub_add_cancel]
      rw [cast_signedInt, value, hpow, Nat.cast_mul, Nat.cast_pow, Nat.cast_ofNat]
      ring
    · intro heven
      have hfactor := Nat.mul_mod x.significand (2 ^ (x.exponent - scale).toNat) 2
      rw [heven, Nat.zero_mul, Nat.zero_mod] at hfactor
      unfold signedInt
      split <;> omega
  · refine .inr ⟨(le_exponent x).trans_lt hlt, ?_⟩
    have hpow : (2 : ℚ) ^ x.exponent ≤ 2 ^ (scale - 1) :=
      zpow_le_zpow_right₀ one_le_two (by omega)
    have hsig : (x.significand : ℚ) < 2 ^ 53 := by exact_mod_cast significand_lt x
    have hpos : (0 : ℚ) < 2 ^ x.exponent := by positivity
    calc |x.value|
      _ = x.significand * 2 ^ x.exponent := by
        rw [value, abs_sign_mul, abs_of_nonneg (by positivity)]
      _ < 2 ^ 53 * 2 ^ x.exponent := mul_lt_mul_of_pos_right hsig hpos
      _ ≤ 2 ^ 53 * 2 ^ (scale - 1) := by gcongr
      _ = 2 ^ 52 * 2 ^ scale := by
        rw [zpow_sub_one₀ htwo]
        ring

end RestStore.Double
