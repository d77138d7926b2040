import RestStore.Calendar.Civil

/-!
# Days and dates

Every date of the calendar is the date of its day number, and every day number is that of a date:
`CivilDate.ofDayNumber_dayNumber`, `CivilDate.dayNumber_ofDayNumber`.

* `yearOfDay_eq` — a day belongs to the year that has begun last, so one correction of the guess is
  enough.
* `splitMonths_daysBeforeMonth` — the same for the months of a year.
-/

set_option autoImplicit false

namespace RestStore

/-! ## Years -/

/-- The days of a year. -/
def yearLength (year : Int) : Int := if isLeapYear year then 366 else 365

theorem daysBeforeYear_succ (year : Int) :
    daysBeforeYear (year + 1) = daysBeforeYear year + yearLength year := by
  unfold yearLength daysBeforeYear
  by_cases h : isLeapYear year = true
  · rw [if_pos h]
    simp only [isLeapYear, Bool.and_eq_true, Bool.or_eq_true, decide_eq_true_eq] at h
    omega
  · rw [if_neg h]
    simp only [isLeapYear, Bool.and_eq_true, Bool.or_eq_true, decide_eq_true_eq] at h
    omega

theorem yearLength_bounds (year : Int) : 365 ≤ yearLength year ∧ yearLength year ≤ 366 := by
  unfold yearLength
  split <;> omega

/-- The first guess is at most one off. -/
theorem guess_bounds {year day : Int} (hfirst : daysBeforeYear year ≤ day)
    (hlast : day < daysBeforeYear (year + 1)) :
    year - 1 ≤ day * 400 / 146097 ∧ day * 400 / 146097 ≤ year + 1 := by
  unfold daysBeforeYear at hfirst hlast
  omega

/-- **A day belongs to the year that has begun last.** -/
theorem yearOfDay_eq {year day : Int} (hfirst : daysBeforeYear year ≤ day)
    (hlast : day < daysBeforeYear (year + 1)) : yearOfDay day = year := by
  have ⟨hlow, hhigh⟩ := guess_bounds hfirst hlast
  have hbefore := daysBeforeYear_succ (year - 1)
  have hafter := daysBeforeYear_succ year
  have hlength := yearLength_bounds (year - 1)
  rw [Int.sub_add_cancel] at hbefore
  unfold yearOfDay
  extract_lets guess
  have hcases : guess = year - 1 ∨ guess = year ∨ guess = year + 1 := by omega
  rcases hcases with hg | hg | hg
  · rw [hg, if_neg (by omega), Int.sub_add_cancel, if_pos hfirst]
  · rw [hg, if_neg (by omega), if_neg (by omega)]
  · rw [hg, if_pos hlast]
    omega

/-- The year of a day has begun, and the next one has not. -/
theorem yearOfDay_bounds (day : Int) :
    daysBeforeYear (yearOfDay day) ≤ day ∧ day < daysBeforeYear (yearOfDay day + 1) := by
  unfold yearOfDay
  extract_lets guess
  have hguess : guess = day * 400 / 146097 := rfl
  split
  · rename_i hlate
    rw [Int.sub_add_cancel]
    refine ⟨?_, hlate⟩
    unfold daysBeforeYear at hlate ⊢
    omega
  split
  · rename_i hearly
    refine ⟨hearly, ?_⟩
    unfold daysBeforeYear
    omega
  · rename_i hlate hearly
    exact ⟨Int.not_lt.1 hlate, Int.not_le.1 hearly⟩

/-! ## Months -/

theorem splitMonths_daysBeforeMonth : ∀ {months : List Nat} {month length day : Nat},
    months[month]? = some length → day < length →
      splitMonths months (daysBeforeMonth months month + day) = (month, day)
  | [], _, _, _, h, _ => by cases h
  | first :: rest, 0, length, day, h, hd => by
    cases h
    simp only [daysBeforeMonth, splitMonths, Nat.zero_add]
    rw [if_pos hd]
  | first :: rest, month + 1, length, day, h, hd => by
    have hrest : rest[month]? = some length := by simpa using h
    have ih := splitMonths_daysBeforeMonth hrest hd
    show splitMonths (first :: rest) (first + daysBeforeMonth rest month + day) = (month + 1, day)
    rw [splitMonths, if_neg (by omega), show first + daysBeforeMonth rest month + day - first =
      daysBeforeMonth rest month + day by omega, ih]

theorem daysBeforeMonth_add_lt : ∀ {months : List Nat} {month length day : Nat},
    months[month]? = some length → day < length →
      daysBeforeMonth months month + day < daysBeforeMonth months months.length
  | [], _, _, _, h, _ => by cases h
  | first :: rest, 0, length, day, h, hd => by
    cases h
    rw [List.length_cons, daysBeforeMonth, daysBeforeMonth]
    · omega
    · simp
  | first :: rest, month + 1, length, day, h, hd => by
    have hrest : rest[month]? = some length := by simpa using h
    have ih := daysBeforeMonth_add_lt hrest hd
    rw [List.length_cons, daysBeforeMonth, daysBeforeMonth]
    omega

/-- A day that the months have lies in one of them. -/
theorem splitMonths_spec : ∀ {months : List Nat} {day : Nat},
    day < daysBeforeMonth months months.length → ∃ length,
      months[(splitMonths months day).1]? = some length ∧ (splitMonths months day).2 < length ∧
        daysBeforeMonth months (splitMonths months day).1 + (splitMonths months day).2 = day
  | [], _, h => by cases h
  | first :: rest, day, h => by
    rw [splitMonths]
    split
    · rename_i hfirst
      exact ⟨first, rfl, hfirst, by simp [daysBeforeMonth]⟩
    · rename_i hlater
      rw [List.length_cons, daysBeforeMonth] at h
      obtain ⟨length, hl, hlt, hsum⟩ :=
        splitMonths_spec (show day - first < daysBeforeMonth rest rest.length by omega)
      refine ⟨length, by simpa using hl, hlt, ?_⟩
      rw [daysBeforeMonth]
      omega

theorem yearLength_eq (year : Int) : yearLength year =
    daysBeforeMonth (monthLengths (isLeapYear year)) (monthLengths (isLeapYear year)).length := by
  unfold yearLength
  cases isLeapYear year <;> rfl

namespace CivilDate

/-- The length of the month of a date. -/
theorem length_of_isValid {date : CivilDate} (h : date.isValid = true) :
    1 ≤ date.month ∧ 1 ≤ date.day ∧ ∃ length,
      (monthLengths (isLeapYear date.year))[date.month - 1]? = some length ∧ date.day ≤ length := by
  simp only [isValid, Bool.and_eq_true, decide_eq_true_eq] at h
  obtain ⟨⟨⟨hmonth, _⟩, hday⟩, hlength⟩ := h
  refine ⟨hmonth, hday, ?_⟩
  cases hl : (monthLengths (isLeapYear date.year))[date.month - 1]? with
  | none =>
    rw [hl, Option.getD_none] at hlength
    omega
  | some length =>
    rw [hl, Option.getD_some] at hlength
    exact ⟨length, rfl, hlength⟩

/-- The day of a date in its year, counted from zero. -/
def dayOfYear (date : CivilDate) : Nat :=
  daysBeforeMonth (monthLengths (isLeapYear date.year)) (date.month - 1) + (date.day - 1)

theorem dayOfYear_lt {date : CivilDate} (h : date.isValid = true) :
    (date.dayOfYear : Int) < yearLength date.year := by
  obtain ⟨_, hday, length, hl, hlength⟩ := length_of_isValid h
  have hlt := daysBeforeMonth_add_lt hl (show date.day - 1 < length by omega)
  rw [yearLength_eq]
  exact_mod_cast hlt

theorem dayNumber_eq {date : CivilDate} (h : date.isValid = true) :
    date.dayNumber + epochDays = daysBeforeYear date.year + date.dayOfYear := by
  obtain ⟨_, hday, _⟩ := length_of_isValid h
  unfold dayNumber dayOfYear
  dsimp only
  omega

/-- **Every date is the date of its day number.** -/
theorem ofDayNumber_dayNumber {date : CivilDate} (h : date.isValid = true) :
    ofDayNumber date.dayNumber = date := by
  obtain ⟨hmonth, hday, length, hl, hlength⟩ := length_of_isValid h
  have hlt := dayOfYear_lt h
  have hsucc := daysBeforeYear_succ date.year
  have hyear : yearOfDay (daysBeforeYear date.year + date.dayOfYear) = date.year :=
    yearOfDay_eq (by omega) (by omega)
  have hrest : (daysBeforeYear date.year + date.dayOfYear - daysBeforeYear date.year).toNat =
      date.dayOfYear := by omega
  unfold ofDayNumber
  simp only [dayNumber_eq h, hyear, hrest]
  unfold dayOfYear
  rw [splitMonths_daysBeforeMonth hl (by omega)]
  obtain ⟨year, month, day⟩ := date
  simp only [mk.injEq, true_and]
  dsimp only at hmonth hday
  omega

/-- The date of a day number: the calendar has it, and it has the number. -/
theorem ofDayNumber_spec (number : Int) :
    (ofDayNumber number).isValid = true ∧ (ofDayNumber number).dayNumber = number := by
  unfold ofDayNumber
  extract_lets day year
  have hnumber : day = number + epochDays := rfl
  have hbounds : daysBeforeYear year ≤ day ∧ day < daysBeforeYear (year + 1) :=
    yearOfDay_bounds day
  have hsucc := daysBeforeYear_succ year
  rw [yearLength_eq] at hsucc
  have hday : (day - daysBeforeYear year).toNat <
      daysBeforeMonth (monthLengths (isLeapYear year)) (monthLengths (isLeapYear year)).length := by
    omega
  obtain ⟨length, hl, hlt, hsum⟩ := splitMonths_spec hday
  generalize splitMonths (monthLengths (isLeapYear year)) (day - daysBeforeYear year).toNat = split
    at hl hlt hsum
  obtain ⟨month, rest⟩ := split
  dsimp only at hl hlt hsum ⊢
  have hmonth : month < 12 := by
    have hlength := (List.getElem?_eq_some_iff.1 hl).1
    simpa [monthLengths] using hlength
  constructor
  · simp only [isValid, Nat.add_sub_cancel, hl, Option.getD_some, Bool.and_eq_true,
      decide_eq_true_eq]
    omega
  · simp only [dayNumber, Nat.add_sub_cancel]
    omega

/-- **Every day number is that of its date.** -/
theorem dayNumber_ofDayNumber (number : Int) : (ofDayNumber number).dayNumber = number :=
  (ofDayNumber_spec number).2

end CivilDate

end RestStore
