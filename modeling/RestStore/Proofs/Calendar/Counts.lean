import RestStore.Proofs.Calendar.Words
import RestStore.Proofs.Double.Rounding
import RestStore.Proofs.Text.Numerals

/-!
# Counts

A word of a phrase counts if it is the text of a signed 64-bit integer, or of a number whose nearest
double is an integer of moderate size: `Counts`. The reader takes these words and no others, and an
integer in any notation is taken as itself: `count?_is_nearest`. A number beside an integer is taken
for it where no double tells the two apart: `count_beside_one`.

* `SpellsNumber.exists_roundsTo` — the double that a number is read as.
* `Counts.near` — how far a count can be from the number that is written.
* `Counts.eq_of_integer` — an integer is not taken for another.
-/

set_option autoImplicit false

namespace RestStore

/-- **A number is read correctly rounded.** -/
theorem SpellsNumber.exists_roundsTo {cs : List Char} {q : ℚ} (h : SpellsNumber cs q) :
    ∃ negative r m scale, q = Double.sign negative * r ∧ Double.RoundsTo r m scale ∧
      (Numeral.ofChars? cs).map Numeral.toDouble = some (Double.ofScaled negative m scale) := by
  obtain ⟨negative, digits, scale, hread, rfl⟩ := SpellsNumber.iff_ofChars?.1 h
  obtain ⟨m, place, hrounds, hdouble⟩ := Double.exists_roundsTo_ofDecimal negative digits scale
  refine ⟨negative, _, m, place, ?_, hrounds, ?_⟩
  · rw [Double.cast_signedInt, mul_assoc]
  · rw [hread, Option.map_some, Numeral.toDouble, hdouble]

namespace Phrase

/-- **A word counts** as the signed 64-bit integer that it spells, or as the integer that is the
nearest double of the number that it spells. -/
inductive Counts (token : List Char) : Int → Prop
  | plain {i : Int} : SpellsInteger token i → fitsInt64 i = true → Counts token i
  | nearest {q : ℚ} {x : Double} {i : Int} : SpellsNumber token q → Double.IsRounded q x →
    x.isFinite = true → x.value = i → i.natAbs < 9000000000000000 → Counts token i

section

variable {token : List Char} {i j n : Int} {q : ℚ}

/-! ## Reading -/

theorem int64OfChars?_eq_some_iff :
    int64OfChars? token = some i ↔ SpellsInteger token i ∧ fitsInt64 i = true := by
  rw [int64OfChars?, Option.filter_eq_some_iff]
  exact and_congr_left fun _ =>
    ⟨SpellsInteger.of_integerOfChars?, SpellsInteger.integerOfChars?⟩

/-- **The fallback reads the nearest double**, if it is an integer of moderate size. -/
theorem wholeNumber?_eq_some_iff : wholeNumber? token = some i ↔
    ∃ q x, SpellsNumber token q ∧ Double.IsRounded q x ∧ x.isFinite = true ∧ x.value = i ∧
      i.natAbs < 9000000000000000 := by
  rw [wholeNumber?, Option.filter_eq_some_iff, decide_eq_true_iff]
  constructor
  · rintro ⟨hread, hsize⟩
    obtain ⟨numeral, hnumeral, hint⟩ := Option.bind_eq_some_iff.1 hread
    obtain ⟨hfinite, hvalue⟩ := Double.toInt?_eq_some_iff.1 hint
    cases numeral with
    | decimal negative digits scale =>
      exact ⟨_, _, SpellsNumber.iff_ofChars?.2 ⟨negative, digits, scale, hnumeral, rfl⟩,
        Double.isRounded_ofDecimal negative digits scale, hfinite, hvalue, hsize⟩
    | infinite negative =>
      exact absurd (hfinite.symm.trans (Double.not_isFinite_infinity negative)) (by decide)
    | nan => exact absurd hfinite (by decide)
  · rintro ⟨q, x, hspells, hrounded, hfinite, hvalue, hsize⟩
    obtain ⟨negative, r, m, scale, rfl, hrounds, hread⟩ := hspells.exists_roundsTo
    obtain ⟨numeral, hnumeral, hdouble⟩ := Option.map_eq_some_iff.1 hread
    obtain ⟨hfinite', hvalue'⟩ := hrounds.value_eq_of_isRounded hrounded hfinite
    have hint := Double.toInt?_eq_some_iff.2 ⟨hfinite', hvalue' ▸ hvalue⟩
    rw [hnumeral, Option.bind_some, hdouble]
    exact ⟨hint, hsize⟩

/-! ## Distances -/

/-- **A count is near the number** that is written: within a part in `2 ^ 53`, or within half of the
least double. -/
theorem Counts.near (h : Counts token i) :
    ∃ q, SpellsNumber token q ∧ |q - i| ≤ max (|(i : ℚ)| / 2 ^ 53) (2 ^ (-1075 : Int)) := by
  cases h with
  | plain hspells _ =>
    refine ⟨i, .of_integer hspells, ?_⟩
    rw [sub_self, abs_zero]
    positivity
  | @nearest q x i hspells hrounded hfinite hvalue _ =>
    obtain ⟨negative, r, m, scale, rfl, hrounds, -⟩ := hspells.exists_roundsTo
    exact ⟨_, hspells, hvalue ▸ hrounds.distance_le hrounded hfinite⟩

/-- Two integers closer than that are the same, if they are of moderate size. -/
theorem eq_of_near (hi : i.natAbs < 9000000000000000)
    (h : |(n : ℚ) - i| ≤ max (|(i : ℚ)| / 2 ^ 53) (2 ^ (-1075 : Int))) : n = i := by
  have hsize : |(i : ℚ)| < 2 ^ 53 := by
    have hsize' : i.natAbs < 2 ^ 53 := by omega
    rw [← Int.cast_abs, Int.abs_eq_natAbs]
    exact_mod_cast hsize'
  have hpart : |(i : ℚ)| / 2 ^ 53 < 1 := (div_lt_one (by positivity)).2 hsize
  have htiny : (2 : ℚ) ^ (-1075 : Int) < 1 := zpow_lt_one_of_neg₀ one_lt_two (by decide)
  have hless : |n - i| < 1 := by exact_mod_cast h.trans_lt (max_lt hpart htiny)
  exact sub_eq_zero.1 (Int.abs_lt_one_iff.1 hless)

/-- **An integer is not taken for another.** -/
theorem Counts.eq_of_integer (h : Counts token i) (hn : SpellsNumber token n) : n = i := by
  obtain ⟨q, hq, hnear⟩ := h.near
  obtain rfl := hq.unique hn
  cases h with
  | plain hspells _ => exact_mod_cast hn.unique (.of_integer hspells)
  | nearest _ _ _ _ hsize => exact eq_of_near hsize hnear

/-- **An integer of moderate size counts as itself**, in any notation. -/
theorem counts_of_integer (h : SpellsNumber token n) (hn : n.natAbs < 9000000000000000) :
    Counts token n := by
  obtain ⟨negative, r, m, scale, hr, hrounds, -⟩ := h.exists_roundsTo
  have hr' : r = n.natAbs := by
    rw [Nat.cast_natAbs, Int.cast_abs, hr, Double.abs_sign_mul, abs_of_nonneg hrounds.nonneg]
  subst hr'
  obtain ⟨hfinite, hvalue⟩ := hrounds.ofScaled_of_natCast (by omega) negative
  exact .nearest h (hr ▸ hrounds.isRounded negative) hfinite (hvalue.trans hr.symm) hn

/-- **Exactly the words that count are read.** -/
theorem count?_eq_some_iff : count? token = some i ↔ Counts token i := by
  cases hread : int64OfChars? token with
  | none =>
    have hplain : ¬(SpellsInteger token i ∧ fitsInt64 i = true) := fun h =>
      nomatch hread.symm.trans (int64OfChars?_eq_some_iff.2 h)
    rw [count?, hread, Option.orElse_none, wholeNumber?_eq_some_iff]
    constructor
    · rintro ⟨q, x, hspells, hrounded, hfinite, hvalue, hsize⟩
      exact .nearest hspells hrounded hfinite hvalue hsize
    · intro h
      cases h with
      | plain hspells hfits => exact absurd ⟨hspells, hfits⟩ hplain
      | nearest hspells hrounded hfinite hvalue hsize =>
        exact ⟨_, _, hspells, hrounded, hfinite, hvalue, hsize⟩
  | some j =>
    obtain ⟨hspells, hfits⟩ := int64OfChars?_eq_some_iff.1 hread
    rw [count?, hread, Option.orElse_some, Option.some_inj]
    exact ⟨fun h => h ▸ .plain hspells hfits, fun h => h.eq_of_integer (.of_integer hspells)⟩

/-- A pair whose word does not count is a fault that names the word. -/
theorem totalSeconds_of_not_counts (h : ∀ i, ¬Counts token i) (unit : List Char)
    (rest : List (List Char)) (total : Int) :
    totalSeconds (token :: unit :: rest) total = .error (.notInteger (String.ofList token)) := by
  have hnone : count? token = none :=
    Option.eq_none_iff_forall_ne_some.2 fun i hi => h i (count?_eq_some_iff.1 hi)
  rw [totalSeconds, hnone]

end

/-- **What a word counts as.** Exactly the words that count are read, each as the integer that it
counts as, and any other is a fault that names the word. The number that is written lies within a
part in `2 ^ 53` of its count, or within half of the least double; if it is an integer it is the
count, and every integer of moderate size is read as itself. -/
theorem count?_is_nearest (token : List Char) :
    (∀ i, count? token = some i ↔ Counts token i) ∧
      (∀ i, count? token = some i → ∃ q, SpellsNumber token q ∧
        |q - i| ≤ max (|(i : ℚ)| / 2 ^ 53) (2 ^ (-1075 : Int)) ∧ ∀ n : Int, q = n → n = i) ∧
      (∀ n : Int, SpellsNumber token n → n.natAbs < 9000000000000000 →
        count? token = some n) ∧
      ((∀ i, ¬Counts token i) → ∀ unit rest total,
        totalSeconds (token :: unit :: rest) total =
          .error (.notInteger (String.ofList token))) := by
  refine ⟨fun i => count?_eq_some_iff, fun i hi => ?_, fun n hn hsize => ?_,
    totalSeconds_of_not_counts⟩
  · have hcounts := count?_eq_some_iff.1 hi
    obtain ⟨q, hq, hnear⟩ := hcounts.near
    exact ⟨q, hq, hnear, fun n hn => hcounts.eq_of_integer (hn ▸ hq)⟩
  · exact count?_eq_some_iff.2 (counts_of_integer hn hsize)

theorem count?_is_nearest_twentyFive :
    SpellsNumber "2.5e1".toList (25 : Int) ∧ count? "2.5e1".toList = some 25 ∧
      (∀ i, ¬Counts "2.5".toList i) ∧
      totalSeconds ["2.5".toList, "days".toList] 0 = .error (.notInteger "2.5") := by
  have hspells : SpellsNumber "2.5e1".toList (25 : Int) :=
    SpellsNumber.iff_ofChars?.2 ⟨false, 25, 0, by decide +kernel, by norm_num [signedInt]⟩
  have hnone : count? "2.5".toList = none := by decide +kernel
  have hcounts : ∀ i, ¬Counts "2.5".toList i := fun i hi =>
    nomatch hnone.symm.trans (((count?_is_nearest "2.5".toList).1 i).2 hi)
  exact ⟨hspells, (count?_is_nearest "2.5e1".toList).2.2.1 25 hspells (by decide), hcounts,
    (count?_is_nearest "2.5".toList).2.2.2 hcounts "days".toList [] 0⟩

/-- A number beside one is no integer and yet counts as one: the nearest double is one. -/
theorem count_beside_one :
    SpellsNumber "1.00000000000000000001".toList (1 + 1 / 10 ^ 20) ∧
      (∀ n : Int, (1 + 1 / 10 ^ 20 : ℚ) ≠ n) ∧
      count? "1.00000000000000000001".toList = some 1 ∧
      resolve "in 1.00000000000000000001 days" marchNoon = .ok ⟨.future, ⟨1710158400, 0⟩⟩ := by
  refine ⟨?_, fun n hn => ?_, by decide +kernel, by decide +kernel⟩
  · exact SpellsNumber.iff_ofChars?.2
      ⟨false, 100000000000000000001, -20, by decide +kernel, by norm_num [signedInt]⟩
  · have hscaled : (10 ^ 20 + 1 : ℚ) = n * 10 ^ 20 := by
      rw [← hn]
      norm_num
    have hint : (10 ^ 20 + 1 : Int) = n * 10 ^ 20 := by exact_mod_cast hscaled
    omega

end Phrase

end RestStore
