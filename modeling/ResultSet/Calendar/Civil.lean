import ResultSet.Number.Sized

/-!
# The civil calendar

The proleptic Gregorian calendar as a count of days, with day 0 on 1970-01-01.

Both directions work in eras of 400 years and in years that begin in March, so that the leap day is
the last day of its year.  `dayNumberInWord?` counts the days up to a date, `ofDayNumberInWord?`
finds the date of a day.

Every sum, difference and product is taken in a word of 32 bits, and nothing stands for one that
leaves the word.  Quotients by a positive number never do.
-/

namespace ResultSet

/-- A year, month and day, not necessarily a date that exists. -/
structure CivilDate where
  year : Int
  month : Nat
  day : Nat
deriving DecidableEq

namespace Calendar

/-- Every fourth year is a leap year, of the centuries every fourth. -/
def isLeapYear (year : Int) : Bool :=
  (year % 4 == 0 && year % 100 != 0) || year % 400 == 0

/-- The number of days of a month, zero for a month that does not exist. -/
def daysInMonth (year : Int) (month : Nat) : Nat :=
  if [1, 3, 5, 7, 8, 10, 12].contains month then 31
  else if [4, 6, 9, 11].contains month then 30
  else if month = 2 then if isLeapYear year then 29 else 28
  else 0

/-- Days of an era of 400 years. -/
def daysPerEra : Int := 146097

/-- Days from the first day of era 0, a first of March, to day 0. -/
def eraOffset : Int := 719468

/-- The integer as a word of 32 bits, nothing when it does not fit. -/
def word? (v : Int) : Option Int := (Signed.ofInt? 32 v).map (·.val)

/-! ## From a date to a day -/

/-- The year that a date counts to when years begin in March. -/
def marchYear? (year : Int) (month : Nat) : Option Int :=
  if month ≤ 2 then word? (year - 1) else some year

/-- The month counted from March as month zero. -/
def marchMonth? (month : Nat) : Option Int :=
  if month ≤ 2 then word? (month + 9) else word? (month - 3)

/-- The era of a year. -/
def eraOfYear? (year : Int) : Option Int := do
  let moved ← if 0 ≤ year then some year else word? (year - 399)
  return moved.tdiv 400

/-- Days of a year before the first day of a month. -/
def daysBeforeMonth? (month : Int) : Option Int := do
  let product ← word? (153 * month)
  let fifths ← word? (product + 2)
  return fifths.tdiv 5

/-- Days of an era before the first day of one of its years. -/
def daysBeforeYear? (yearOfEra : Int) : Option Int := do
  let product ← word? (365 * yearOfEra)
  let julian ← word? (product + yearOfEra.tdiv 4)
  word? (julian - yearOfEra.tdiv 100)

/-- The day that a date falls on, whether the date exists or not. -/
def dayNumberInWord? (date : CivilDate) : Option Int := do
  let year ← marchYear? date.year date.month
  let month ← marchMonth? date.month
  let era ← eraOfYear? year
  let eraYears ← word? (era * 400)
  let yearOfEra ← word? (year - eraYears)
  let monthDays ← daysBeforeMonth? month
  let afterDay ← word? (monthDays + date.day)
  let dayOfYear ← word? (afterDay - 1)
  let yearDays ← daysBeforeYear? yearOfEra
  let dayOfEra ← word? (yearDays + dayOfYear)
  let eraDays ← word? (era * daysPerEra)
  let shifted ← word? (eraDays + dayOfEra)
  word? (shifted - eraOffset)

/-! ## From a day to a date -/

/-- The era of a day counted from the first day of era 0. -/
def eraOfDay? (day : Int) : Option Int := do
  let moved ← if 0 ≤ day then some day else word? (day - (daysPerEra - 1))
  return moved.tdiv daysPerEra

/-- The year that a day of an era falls in. -/
def yearOfEraDay? (dayOfEra : Int) : Option Int := do
  let common ← word? (dayOfEra - dayOfEra.tdiv 1460)
  let centuries ← word? (common + dayOfEra.tdiv 36524)
  let days ← word? (centuries - dayOfEra.tdiv 146096)
  return days.tdiv 365

/-- The month, counted from March, that a day of a year falls in. -/
def monthOfYearDay? (dayOfYear : Int) : Option Int := do
  let product ← word? (5 * dayOfYear)
  let fifths ← word? (product + 2)
  return fifths.tdiv 153

/-- The month of the civil year with this number when March is month zero. -/
def civilMonth? (month : Int) : Option Int :=
  if month < 10 then word? (month + 3) else word? (month - 9)

/-- The date of a day. -/
def ofDayNumberInWord? (day : Int) : Option CivilDate := do
  let shifted ← word? (day + eraOffset)
  let era ← eraOfDay? shifted
  let eraDays ← word? (era * daysPerEra)
  let dayOfEra ← word? (shifted - eraDays)
  let yearOfEra ← yearOfEraDay? dayOfEra
  let eraYears ← word? (era * 400)
  let year ← word? (yearOfEra + eraYears)
  let yearDays ← daysBeforeYear? yearOfEra
  let dayOfYear ← word? (dayOfEra - yearDays)
  let month ← monthOfYearDay? dayOfYear
  let monthDays ← daysBeforeMonth? month
  let before ← word? (dayOfYear - monthDays)
  let dayOfMonth ← word? (before + 1)
  let civil ← civilMonth? month
  let civilYear ← if civil ≤ 2 then word? (year + 1) else some year
  return ⟨civilYear, civil.toNat, dayOfMonth.toNat⟩

end Calendar

namespace CivilDate

open Calendar

/-- The date exists. -/
def exists? (date : CivilDate) : Bool :=
  decide (1 ≤ date.month ∧ date.month ≤ 12 ∧ 1 ≤ date.day ∧
    date.day ≤ daysInMonth date.year date.month)

/-- The day that a date falls on, `some none` when the date does not exist. -/
def dayNumber? (date : CivilDate) : Option (Option (Signed 32)) :=
  if date.exists? then ((dayNumberInWord? date).bind (Signed.ofInt? 32)).map some else some none

end CivilDate

end ResultSet
