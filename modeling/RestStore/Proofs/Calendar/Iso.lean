import RestStore.Atom.Date
import RestStore.Proofs.Calendar.Spelled

/-!
# Canonical texts of instants

The text of a date and a time of day with milliseconds, in the form that `Iso.render` writes for a
year of four digits. Such a text is read as the instant, and the instant, stored as its count of
milliseconds, is written as the same text.

* `IsoMoment` — a date and a time of day with milliseconds.
* `IsoMoment.parse?_text` — its text is read.
* `IsoMoment.render_ofStored` — its text is written.
* `IsoMoment.exists_of_stored` — every stored instant of a year with four digits is one.
-/

set_option autoImplicit false

namespace RestStore

/-- A date of a year with four digits and a time of day with milliseconds; no leap second. -/
structure IsoMoment where
  date : CivilDate
  hour : Nat
  minute : Nat
  second : Nat
  milli : Nat
  date_valid : date.isValid = true
  year_nonneg : 0 ≤ date.year
  year_le : date.year ≤ 9999
  hour_le : hour ≤ 23
  minute_le : minute ≤ 59
  second_le : second ≤ 59
  milli_le : milli ≤ 999

namespace IsoMoment

variable (moment : IsoMoment)

/-- The text `YYYY-MM-DDThh:mm:ss.mmmZ`. -/
def text : String :=
  String.ofList (paddedNat 4 moment.date.year.toNat ++ '-' :: (paddedNat 2 moment.date.month ++
    '-' :: (paddedNat 2 moment.date.day ++ 'T' :: (paddedNat 2 moment.hour ++
    ':' :: (paddedNat 2 moment.minute ++ ':' :: (paddedNat 2 moment.second ++
    '.' :: (paddedNat 3 moment.milli ++ ['Z'])))))))

/-- The time of day. -/
def time : ClockTime :=
  ⟨moment.hour, moment.minute, moment.second, moment.milli * 1000000⟩

/-- The seconds since midnight. -/
def secondOfDay : Nat := moment.hour * 3600 + moment.minute * 60 + moment.second

/-- The instant. -/
def instant : Instant :=
  ⟨moment.date.dayNumber * 86400 + moment.secondOfDay, moment.milli * 1000000⟩

theorem secondOfDay_lt : moment.secondOfDay < 86400 := by
  have := moment.hour_le
  have := moment.minute_le
  have := moment.second_le
  unfold secondOfDay
  omega

theorem ofCivil_time : Instant.ofCivil moment.date moment.time = moment.instant := by
  have hs := moment.second_le
  unfold Instant.ofCivil time instant secondOfDay
  simp only [show ¬moment.second = 60 by omega, if_false,
    Instant.mk.injEq, and_true]
  omega

/-! ## Reading -/

theorem time_isValid : moment.time.isValid = true := by
  have hhour := moment.hour_le
  have hminute := moment.minute_le
  have hsecond := moment.second_le
  have hmilli := moment.milli_le
  unfold time ClockTime.isValid
  simp only [Bool.and_eq_true, decide_eq_true_eq]
  omega

theorem inMillis_time : moment.time.inMillis = moment.time := by
  have hwhole : moment.milli * 1000000 / 1000000 * 1000000 = moment.milli * 1000000 := by omega
  unfold time ClockTime.inMillis
  rw [hwhole]

theorem text_eq_spelled : moment.text = String.ofList (Iso.spelled moment.date moment.time) := by
  unfold text Iso.spelled time
  rw [Nat.mul_div_cancel _ (by decide)]

theorem timestamp?_text : Iso.timestamp? moment.text.toList = some moment.instant := by
  rw [moment.text_eq_spelled, String.toList_ofList,
    Iso.timestamp?_spelled moment.date_valid moment.time_isValid moment.year_nonneg moment.year_le,
    moment.inMillis_time, moment.ofCivil_time]

/-- **The text is read as the instant.** -/
theorem parse?_text : Iso.parse? moment.text = some moment.instant := by
  unfold Iso.parse?
  dsimp only
  rw [moment.timestamp?_text]
  rfl

/-! ## Writing -/

/-- The days of the years with four digits. -/
theorem dayNumber_bounds :
    -719528 ≤ moment.date.dayNumber ∧ moment.date.dayNumber < 2932897 := by
  have hnumber := CivilDate.dayNumber_eq moment.date_valid
  have hlt := CivilDate.dayOfYear_lt moment.date_valid
  have hsucc := daysBeforeYear_succ moment.date.year
  have hyear := moment.year_nonneg
  have hyear' := moment.year_le
  have hepoch : epochDays = 719528 := rfl
  have hfirst : 0 ≤ daysBeforeYear moment.date.year := by
    unfold daysBeforeYear
    omega
  have hlast : daysBeforeYear (moment.date.year + 1) ≤ 3652425 := by
    unfold daysBeforeYear
    omega
  omega

theorem millis_instant : moment.instant.millis =
    (moment.date.dayNumber * 86400 + moment.secondOfDay) * 1000 + moment.milli := by
  unfold instant Instant.millis
  dsimp only
  omega

theorem ofStored_millis :
    Instant.ofStored (Int64.ofInt moment.instant.millis) = moment.instant := by
  obtain ⟨hlow, hhigh⟩ := moment.dayNumber_bounds
  have hsecond := moment.secondOfDay_lt
  have hmilli := moment.milli_le
  have hmillis := moment.millis_instant
  have hfirst : Instant.firstSecond = -8334601228800 := rfl
  have hlast : Instant.lastSecond = 8210266876799 := rfl
  unfold Instant.ofStored
  rw [Int64.toInt_ofInt_of_le (by omega) (by omega)]
  unfold Instant.ofMillis
  extract_lets held
  have hheld : held = moment.instant.millis := by omega
  rw [hheld, hmillis]
  unfold instant
  simp only [Instant.mk.injEq]
  omega

theorem date_instant : moment.instant.date = moment.date := by
  have hsecond := moment.secondOfDay_lt
  unfold Instant.date instant
  dsimp only
  rw [show (moment.date.dayNumber * 86400 + moment.secondOfDay) / 86400 = moment.date.dayNumber by
    omega]
  exact CivilDate.ofDayNumber_dayNumber moment.date_valid

theorem time_instant : moment.instant.time = moment.time := by
  have hsecond := moment.secondOfDay_lt
  have hminute := moment.minute_le
  have hsecond' := moment.second_le
  have hmilli := moment.milli_le
  unfold Instant.time instant time
  dsimp only
  rw [show ((moment.date.dayNumber * 86400 + moment.secondOfDay) % 86400).toNat =
    moment.secondOfDay by omega]
  unfold secondOfDay
  simp only [ClockTime.mk.injEq]
  omega

theorem render_instant : Iso.render moment.instant = moment.text := by
  have hfirst : 0 ≤ moment.instant.date.year := by
    rw [moment.date_instant]
    exact moment.year_nonneg
  have hlast : moment.instant.date.year ≤ 9999 := by
    rw [moment.date_instant]
    exact moment.year_le
  rw [Iso.render_of_year hfirst hlast, moment.date_instant, moment.time_instant,
    moment.text_eq_spelled]

/-- **The stored instant is written as the text.** -/
theorem render_ofStored :
    Iso.render (Instant.ofStored (Int64.ofInt moment.instant.millis)) = moment.text := by
  rw [moment.ofStored_millis, moment.render_instant]

/-! ## Stored instants -/

/-- A stored instant of a year with four digits is in the range of instants. -/
theorem ofStored_of_year {millis : Int64} (hfirst : 0 ≤ (Instant.ofStored millis).date.year)
    (hlast : (Instant.ofStored millis).date.year ≤ 9999) : Instant.ofStored millis =
      ⟨millis.toInt / 1000, (millis.toInt % 1000).toNat * 1000000⟩ := by
  have hlow : Instant.firstSecond = -8334601228800 := rfl
  have hhigh : Instant.lastSecond = 8210266876799 := rfl
  unfold Instant.ofStored Instant.ofMillis at hfirst hlast ⊢
  dsimp only at hfirst hlast ⊢
  generalize hheld : max (Instant.firstSecond * 1000)
    (min millis.toInt (Instant.lastSecond * 1000 + 999)) = held at hfirst hlast ⊢
  -- a count that had to be held lies in the first or the last year of instants
  have hcases : held = Instant.firstSecond * 1000 ∨ held = Instant.lastSecond * 1000 + 999 ∨
      held = millis.toInt := by omega
  rcases hcases with rfl | rfl | rfl
  · exact absurd hfirst (by decide)
  · exact absurd hlast (by decide)
  · rfl

/-- **A stored instant of a year with four digits** is that of a date and a time of day. -/
theorem exists_of_stored {millis : Int64} (hfirst : 0 ≤ (Instant.ofStored millis).date.year)
    (hlast : (Instant.ofStored millis).date.year ≤ 9999) :
    ∃ moment : IsoMoment, Int64.ofInt moment.instant.millis = millis := by
  have hstored := ofStored_of_year hfirst hlast
  rw [hstored] at hfirst hlast
  have hvalid := (CivilDate.ofDayNumber_spec (millis.toInt / 1000 / 86400)).1
  have hnumber := CivilDate.dayNumber_ofDayNumber (millis.toInt / 1000 / 86400)
  let second := (millis.toInt / 1000 % 86400).toNat
  let moment : IsoMoment :=
    { date := .ofDayNumber (millis.toInt / 1000 / 86400)
      hour := second / 3600
      minute := second / 60 % 60
      second := second % 60
      milli := (millis.toInt % 1000).toNat
      date_valid := hvalid
      year_nonneg := hfirst
      year_le := hlast
      hour_le := by omega
      minute_le := by omega
      second_le := by omega
      milli_le := by omega }
  refine ⟨moment, ?_⟩
  have hsecond : moment.secondOfDay = second := by
    show second / 3600 * 3600 + second / 60 % 60 * 60 + second % 60 = second
    omega
  have hmillis : moment.instant.millis = millis.toInt := by
    rw [moment.millis_instant, hsecond, hnumber]
    show (millis.toInt / 1000 / 86400 * 86400 + ((millis.toInt / 1000 % 86400).toNat : Int)) * 1000
      + ((millis.toInt % 1000).toNat : Int) = millis.toInt
    omega
  rw [hmillis, Int64.ofInt_toInt]

end IsoMoment

end RestStore
