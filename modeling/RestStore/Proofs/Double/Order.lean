import RestStore.Rest.Basic

/-!
# Order of doubles

Doubles that are numbers are compared by their ranks, and the rank of a double is its magnitude but
for the sign. Rounding an integer keeps its magnitude above a power of two that it reaches:
`le_magnitude_ofInt`.

* `same_symm`, `same_trans`, `same_self` — equality of numbers; NaN is the one without itself.
* `natAbs_rank`, `rank_le_of_not_lt` — from the order to bounds on magnitudes.
-/

set_option autoImplicit false

namespace RestStore.Double

/-! ## Equality -/

section

variable {x y z : Double}

theorem same_iff : x.same y = true ↔ x.isNaN = false ∧ y.isNaN = false ∧ x.rank = y.rank := by
  unfold same
  rw [Bool.and_eq_true, Bool.and_eq_true, decide_eq_true_eq, Bool.not_eq_true', Bool.not_eq_true',
    and_assoc]

theorem same_symm (h : x.same y = true) : y.same x = true := by
  obtain ⟨hx, hy, hrank⟩ := same_iff.1 h
  exact same_iff.2 ⟨hy, hx, hrank.symm⟩

theorem same_trans (hxy : x.same y = true) (hyz : y.same z = true) : x.same z = true := by
  obtain ⟨hx, _, hfirst⟩ := same_iff.1 hxy
  obtain ⟨_, hz, hsecond⟩ := same_iff.1 hyz
  exact same_iff.2 ⟨hx, hz, hfirst.trans hsecond⟩

theorem same_self (h : x.isNaN = false) : x.same x = true := same_iff.2 ⟨h, h, rfl⟩

/-! ## Magnitudes -/

theorem natAbs_rank (x : Double) : x.rank.natAbs = x.magnitude := by
  unfold rank
  split <;> omega

theorem rank_le_of_not_lt (hx : x.isNaN = false) (hy : y.isNaN = false) (h : x.lt y = false) :
    y.rank ≤ x.rank := by
  unfold lt at h
  rw [hx, hy] at h
  have hnot : ¬x.rank < y.rank := by simpa using h
  omega

theorem isNaN_eq_false_of_magnitude (h : x.magnitude < infinityBits) : x.isNaN = false := by
  unfold isNaN
  rw [decide_eq_false_iff_not]
  omega

end

theorem magnitude_ofMagnitude (negative : Bool) {magnitude : Nat} (h : magnitude < signWeight) :
    (ofMagnitude negative magnitude).magnitude = magnitude := by
  unfold signWeight at h
  unfold Double.magnitude ofMagnitude signWeight
  rw [UInt64.toNat_ofNat']
  cases negative with
  | true =>
    rw [if_pos rfl]
    omega
  | false =>
    rw [if_neg Bool.false_ne_true]
    omega

theorem twoPow_pos (power : Nat) : 0 < twoPow power := Nat.two_pow_pos power

/-- The scale of an integer is that of a power of two it reaches, or more. -/
theorem le_scaleOf {num power : Nat} (h : twoPow power ≤ num) :
    (power : Int) - 53 ≤ scaleOf num 1 := by
  have hpos : 0 < twoPow power := twoPow_pos power
  have hlog : power ≤ Nat.log2 num := (Nat.le_log2 (by omega)).2 h
  have hone : Nat.log2 1 = 0 := by decide
  unfold scaleOf
  rw [hone]
  dsimp only
  split <;> omega

/-- **An integer that reaches a power of two is a double that reaches it**, or infinity: the
exponent bits come from the scale, and rounding the significand can only add to them. -/
theorem le_magnitude_ofInt {i : Int} {power : Nat} (h : twoPow power ≤ i.natAbs) :
    min ((power + 1021) * leadingBit) infinityBits ≤ (ofInt i).magnitude := by
  have hpos : 0 < twoPow power := twoPow_pos power
  have hscale : (power : Int) - 53 ≤ scaleOf i.natAbs 1 := le_scaleOf h
  have hexponent : power + 1021 ≤ (scaleOf i.natAbs 1 + 1074).toNat := by omega
  have hbits : (power + 1021) * leadingBit ≤ (scaleOf i.natAbs 1 + 1074).toNat * leadingBit :=
    Nat.mul_le_mul_right _ hexponent
  unfold ofInt ofRatio
  rw [if_neg (by omega)]
  dsimp only
  rw [magnitude_ofMagnitude _ (Nat.lt_of_le_of_lt (Nat.min_le_right _ _) (by decide))]
  omega

end RestStore.Double
