import RestStore.Calendar.Iso
import RestStore.Proofs.Calendar.Civil
import RestStore.Proofs.Text.Digits

/-!
# Spelled times

The text of a date with a year of four digits and a time of day, in UTC with milliseconds. It is what
`Iso.render` writes for an instant of such a year, and it is read as the instant of the date and the
time to the millisecond, second 60 included.

* `Iso.spelled` — the text.
* `Iso.timestamp?_spelled` — it is read.
* `Iso.render_of_year` — it is written.
-/

set_option autoImplicit false

namespace RestStore

/-- The time of day without what is below a millisecond. -/
def ClockTime.inMillis (time : ClockTime) : ClockTime :=
  { time with nanos := time.nanos / 1000000 * 1000000 }

theorem CivilDate.month_day_le {date : CivilDate} (h : date.isValid = true) :
    date.month ≤ 12 ∧ date.day ≤ 31 := by
  obtain ⟨_, _, length, hl, hday⟩ := CivilDate.length_of_isValid h
  simp only [CivilDate.isValid, Bool.and_eq_true, decide_eq_true_eq] at h
  have hmem := List.mem_of_getElem? hl
  have hlength : length ≤ 31 := by
    generalize isLeapYear date.year = leap at hmem
    cases leap <;> simp [monthLengths] at hmem <;> omega
  exact ⟨h.1.1.2, Nat.le_trans hday hlength⟩

namespace Iso

/-- The text `YYYY-MM-DDThh:mm:ss.mmmZ`. -/
def spelled (date : CivilDate) (time : ClockTime) : List Char :=
  paddedNat 4 date.year.toNat ++ '-' :: (paddedNat 2 date.month ++ '-' :: (paddedNat 2 date.day ++
    'T' :: (paddedNat 2 time.hour ++ ':' :: (paddedNat 2 time.minute ++ ':' ::
    (paddedNat 2 time.second ++ '.' :: (paddedNat 3 (time.nanos / 1000000) ++ ['Z']))))))

/-! ## Reading -/

theorem fixed_paddedNat (width : Nat) {n : Nat} (hw : 0 < width) (h : n < tenPow width)
    (rest : List Char) : fixed width (paddedNat width n ++ rest) = some (n, rest) := by
  unfold fixed
  rw [spanUpTo_paddedNat hw h]
  dsimp only
  rw [natOfDigits_paddedNat, if_pos]
  rw [digitValues, List.length_map, length_paddedNat hw h]

theorem fixed_two {n : Nat} (h : n ≤ 99) (rest : List Char) :
    fixed 2 (paddedNat 2 n ++ rest) = some (n, rest) :=
  fixed_paddedNat 2 (by decide) (show n < 100 by omega) rest

theorem read_bind {α β : Type} {read : Option α} {found : α} {next : α → Option β}
    (h : read = some found) : (read >>= next) = next found := by
  rw [h]
  rfl

theorem expect_bind {β : Type} (c : Char) (rest : List Char) {next : List Char → Option β} :
    (expect c (c :: rest) >>= next) = next rest :=
  read_bind (if_pos rfl)

theorem fraction_paddedNat {milli : Nat} (h : milli ≤ 999) :
    fraction ('.' :: (paddedNat 3 milli ++ ['Z'])) = some (milli * 1000000, ['Z']) := by
  have hlength : (paddedNat 3 milli).length = 3 := length_paddedNat (by decide)
    (show milli < 1000 by omega)
  have hspan : spanDigits (paddedNat 3 milli ++ ['Z']) = (digitValues (paddedNat 3 milli), ['Z']) :=
    spanDigits_of_isDigit (fun _ => isDigit_of_mem_paddedNat) fun c hc => by
      cases hc
      rfl
  have hvalues : (digitValues (paddedNat 3 milli)).length = 3 := by
    rw [digitValues, List.length_map, hlength]
  have hnanos : nanosOfDigits (digitValues (paddedNat 3 milli)) = milli * 1000000 := by
    unfold nanosOfDigits
    rw [List.take_of_length_le (by omega)]
    show natOfDigits _ * tenPow (9 - (digitValues (paddedNat 3 milli)).length) = _
    rw [hvalues, natOfDigits_paddedNat]
    rfl
  cases hv : digitValues (paddedNat 3 milli) with
  | nil =>
    rw [hv] at hvalues
    cases hvalues
  | cons digit digits =>
    unfold fraction
    simp only [hspan, hv]
    rw [← hv, hnanos]

/-- **A spelled time is read to the millisecond.** -/
theorem timestamp?_spelled {date : CivilDate} {time : ClockTime} (hdate : date.isValid = true)
    (htime : time.isValid = true) (hfirst : 0 ≤ date.year) (hlast : date.year ≤ 9999) :
    timestamp? (spelled date time) = some (Instant.ofCivil date time.inMillis) := by
  obtain ⟨hmonth, hday⟩ := CivilDate.month_day_le hdate
  have htime' := htime
  simp only [ClockTime.isValid, Bool.and_eq_true, decide_eq_true_eq] at htime'
  obtain ⟨⟨⟨hhour, hminute⟩, hsecond⟩, hnanos⟩ := htime'
  have hyear : date.year.toNat < tenPow 4 := by
    show date.year.toNat < 10000
    omega
  have hread : (⟨(date.year.toNat : Int), date.month, date.day⟩ : CivilDate) = date := by
    rw [Int.toNat_of_nonneg hfirst]
  have hvalid : time.inMillis.isValid = true := by
    unfold ClockTime.inMillis ClockTime.isValid
    simp only [Bool.and_eq_true, decide_eq_true_eq]
    omega
  have hinstant : instant? date time.inMillis = some (Instant.ofCivil date time.inMillis) := by
    unfold instant?
    rw [hdate, hvalid, Bool.and_self, if_pos rfl]
  unfold timestamp? spelled
  refine (read_bind (fixed_paddedNat 4 (by decide) hyear _)).trans ?_
  refine (expect_bind '-' _).trans ?_
  refine (read_bind (fixed_two (by omega) _)).trans ?_
  refine (expect_bind '-' _).trans ?_
  refine (read_bind (fixed_two (by omega) _)).trans ?_
  refine (read_bind (fixed_two (by omega) _)).trans ?_
  refine (expect_bind ':' _).trans ?_
  refine (read_bind (fixed_two (by omega) _)).trans ?_
  refine (expect_bind ':' _).trans ?_
  refine (read_bind (fixed_two (by omega) _)).trans ?_
  refine (read_bind (fraction_paddedNat (by omega))).trans ?_
  refine (read_bind (show offset? ['Z'] = some 0 from rfl)).trans ?_
  rw [hread]
  refine (read_bind hinstant).trans ?_
  show some (⟨_ - 0 * 60, _⟩ : Instant) = _
  rw [Int.zero_mul, Int.sub_zero]

/-! ## Writing -/

/-- An instant of a year with four digits is written as its date and time are spelled. -/
theorem render_of_year {instant : Instant} (hfirst : 0 ≤ instant.date.year)
    (hlast : instant.date.year ≤ 9999) :
    render instant = String.ofList (spelled instant.date instant.time) := by
  unfold render spelled yearText
  dsimp only
  rw [if_pos ⟨hfirst, hlast⟩]
  simp only [List.append_assoc, List.cons_append]

/-- The text of an instant ends in the mark of UTC. -/
theorem zulu_mem_render (instant : Instant) : 'Z' ∈ (render instant).toList := by
  unfold render
  rw [String.toList_ofList]
  exact List.mem_append_right _ List.mem_cons_self

/-- The text of an instant of any other year starts with a sign. -/
theorem render_signed {instant : Instant}
    (h : ¬(0 ≤ instant.date.year ∧ instant.date.year ≤ 9999)) :
    ∃ sign rest, (render instant).toList = sign :: rest ∧ digitValue? sign = none := by
  unfold render yearText
  dsimp only
  rw [if_neg h, String.toList_ofList]
  refine ⟨_, _, rfl, ?_⟩
  split <;> decide

end Iso

end RestStore
