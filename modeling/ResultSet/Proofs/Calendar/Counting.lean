import ResultSet.Calendar.Civil

/-!
# The calendar over the integers

The count of days and the search for a date, with the steps of `dayNumberInWord?` and
`ofDayNumberInWord?` taken over the integers: `dayNumber` and `CivilDate.ofDayNumber`.  They have an
answer for every date and every day, and the Gregorian calendar is proved of them.
-/

namespace ResultSet

namespace Calendar

/-! ## From a date to a day -/

/-- The year that a date counts to when years begin in March. -/
def marchYear (year : Int) (month : Nat) : Int := if month ≤ 2 then year - 1 else year

/-- The month counted from March as month zero. -/
def marchMonth (month : Nat) : Int := if month ≤ 2 then (month : Int) + 9 else (month : Int) - 3

/-- The era of a year. -/
def eraOfYear (year : Int) : Int := (if 0 ≤ year then year else year - 399).tdiv 400

/-- Days of a year before the first day of a month. -/
def daysBeforeMonth (month : Int) : Int := (153 * month + 2).tdiv 5

/-- Days of an era before the first day of one of its years. -/
def daysBeforeYear (yearOfEra : Int) : Int :=
  365 * yearOfEra + yearOfEra.tdiv 4 - yearOfEra.tdiv 100

/-- The day that a date falls on, whether the date exists or not. -/
def dayNumber (date : CivilDate) : Int :=
  let year := marchYear date.year date.month
  let era := eraOfYear year
  let dayOfYear := daysBeforeMonth (marchMonth date.month) + date.day - 1
  era * daysPerEra + (daysBeforeYear (year - era * 400) + dayOfYear) - eraOffset

/-! ## From a day to a date -/

/-- The era of a day counted from the first day of era 0. -/
def eraOfDay (day : Int) : Int :=
  (if 0 ≤ day then day else day - (daysPerEra - 1)).tdiv daysPerEra

/-- The year that a day of an era falls in. -/
def yearOfEraDay (dayOfEra : Int) : Int :=
  (dayOfEra - dayOfEra.tdiv 1460 + dayOfEra.tdiv 36524 - dayOfEra.tdiv 146096).tdiv 365

/-- The month, counted from March, that a day of a year falls in. -/
def monthOfYearDay (dayOfYear : Int) : Int := (5 * dayOfYear + 2).tdiv 153

/-- The month of the civil year with this number when March is month zero. -/
def civilMonth (month : Int) : Int := if month < 10 then month + 3 else month - 9

end Calendar

open Calendar in
/-- The date of a day. -/
def CivilDate.ofDayNumber (day : Int) : CivilDate :=
  let shifted := day + eraOffset
  let era := eraOfDay shifted
  let dayOfEra := shifted - era * daysPerEra
  let yearOfEra := yearOfEraDay dayOfEra
  let dayOfYear := dayOfEra - daysBeforeYear yearOfEra
  let month := monthOfYearDay dayOfYear
  let civil := civilMonth month
  let year := yearOfEra + era * 400
  ⟨if civil ≤ 2 then year + 1 else year, civil.toNat,
    (dayOfYear - daysBeforeMonth month + 1).toNat⟩

namespace Calendar

/-! ## Bounds of the parts of a date -/

/-- Truncated division of a value that was moved down below zero is the floor. -/
theorem tdiv_eq_floor {v size : Int} (hsize : 0 < size) :
    (if 0 ≤ v then v else v - (size - 1)).tdiv size = v / size := by
  by_cases hv : 0 ≤ v
  · rw [if_pos hv, Int.tdiv_eq_ediv_of_nonneg hv]
  · have hneg : v - (size - 1) = -(size - 1 - v) := by omega
    rw [if_neg hv, hneg, Int.neg_tdiv, Int.tdiv_eq_ediv_of_nonneg (by omega)]
    have hquotient := (Int.ediv_eq_iff_of_pos hsize).1 (rfl : (size - 1 - v) / size = _)
    apply Eq.symm
    rw [Int.ediv_eq_iff_of_pos hsize, Int.neg_mul]
    omega

theorem eraOfDay_eq (day : Int) : eraOfDay day = day / 146097 := tdiv_eq_floor (by decide)

theorem eraOfYear_eq (year : Int) : eraOfYear year = year / 400 :=
  @tdiv_eq_floor year 400 (by decide)

theorem marchYear_bounds (year : Int) (month : Nat) :
    year - 1 ≤ marchYear year month ∧ marchYear year month ≤ year := by
  unfold marchYear
  split <;> omega

theorem daysBeforeYear_bounds {yearOfEra : Int} (h : 0 ≤ yearOfEra ∧ yearOfEra < 400) :
    0 ≤ daysBeforeYear yearOfEra ∧ daysBeforeYear yearOfEra < 146097 := by
  rw [daysBeforeYear, Int.tdiv_eq_ediv_of_nonneg h.1, Int.tdiv_eq_ediv_of_nonneg h.1]
  omega

theorem yearOfEraDay_bounds {dayOfEra : Int} (h : 0 ≤ dayOfEra ∧ dayOfEra < 146097) :
    0 ≤ yearOfEraDay dayOfEra ∧ yearOfEraDay dayOfEra < 400 := by
  rw [yearOfEraDay, Int.tdiv_eq_ediv_of_nonneg h.1, Int.tdiv_eq_ediv_of_nonneg h.1,
    Int.tdiv_eq_ediv_of_nonneg h.1, Int.tdiv_eq_ediv_of_nonneg (by omega)]
  omega

theorem daysBeforeMonth_bounds {month : Int} (h : 0 ≤ month ∧ month < 12) :
    0 ≤ daysBeforeMonth month ∧ daysBeforeMonth month < 338 := by
  rw [daysBeforeMonth, Int.tdiv_eq_ediv_of_nonneg (by omega)]
  omega

end Calendar

end ResultSet
