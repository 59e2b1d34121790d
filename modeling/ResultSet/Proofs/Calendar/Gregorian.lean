import ResultSet.Proofs.Calendar.Counting

/-!
# The Gregorian calendar

`CivilDate.Valid` is the Gregorian calendar as it is written down: the lengths of the months
and the rule of leap years.  This module shows that the count of days is that calendar.

There are four groups.

* Years that begin in March.  `daysToMarch` counts the days up to such a year in one formula,
  without eras, and `yearOfEraDay_eq` finds the year again.  The formula that finds it is only
  evaluated at the first and the last day of each year of an era; between them it is monotone.
* March dates.  `IsMarchDate` says that month and day exist in a year that begins in March.
  Every day is the day of one of them (`exists_marchDate`), and `ofDayNumber_marchDay` finds it.
* Both directions.  `ofDayNumber_dayNumber` and `dayNumber_ofDayNumber` follow, because valid
  dates and March dates are the same dates with their months counted differently.
* The order.  The day after a date is the day of `CivilDate.next`, so dates are ordered as
  their days (`compare_ofDayNumber`).
-/

namespace ResultSet

/-! ## Dates that exist -/

/-- Every fourth year is a leap year, but of the centuries only every fourth. -/
def Calendar.IsLeap (year : Int) : Prop := 4 ∣ year ∧ (100 ∣ year → 400 ∣ year)

open Calendar

/-- The date stands in the Gregorian calendar. -/
structure CivilDate.Valid (date : CivilDate) : Prop where
  month_pos : 1 ≤ date.month
  month_le : date.month ≤ 12
  day_pos : 1 ≤ date.day
  day_le : date.day ≤ 31
  short : date.month = 4 ∨ date.month = 6 ∨ date.month = 9 ∨ date.month = 11 → date.day ≤ 30
  february : date.month = 2 → date.day ≤ 29 ∧ (date.day = 29 → IsLeap date.year)

namespace Calendar

theorem isLeapYear_iff (year : Int) : isLeapYear year = true ↔ IsLeap year := by
  simp only [isLeapYear, IsLeap, Bool.or_eq_true, Bool.and_eq_true, beq_iff_eq, bne_iff_ne]
  omega

/-- The lengths of the months: February, the four short months and the others. -/
theorem daysInMonth_cases (year : Int) {month : Nat} (h : 1 ≤ month ∧ month ≤ 12) :
    month = 2 ∧ daysInMonth year month = (if isLeapYear year then 29 else 28) ∨
      (month = 4 ∨ month = 6 ∨ month = 9 ∨ month = 11) ∧ daysInMonth year month = 30 ∨
      (month ≠ 2 ∧ month ≠ 4 ∧ month ≠ 6 ∧ month ≠ 9 ∧ month ≠ 11) ∧
        daysInMonth year month = 31 := by
  obtain rfl | rfl | rfl | rfl | rfl | rfl | rfl | rfl | rfl | rfl | rfl | rfl :
      month = 1 ∨ month = 2 ∨ month = 3 ∨ month = 4 ∨ month = 5 ∨ month = 6 ∨ month = 7 ∨
        month = 8 ∨ month = 9 ∨ month = 10 ∨ month = 11 ∨ month = 12 := by omega
  all_goals simp [daysInMonth]

theorem le_daysInMonth_iff (year : Int) {month : Nat} (h : 1 ≤ month ∧ month ≤ 12) (day : Nat) :
    day ≤ daysInMonth year month ↔ day ≤ 31 ∧
      (month = 4 ∨ month = 6 ∨ month = 9 ∨ month = 11 → day ≤ 30) ∧
      (month = 2 → day ≤ 29 ∧ (day = 29 → IsLeap year)) := by
  rcases daysInMonth_cases year h with ⟨hmonth, hlength⟩ | ⟨hmonth, hlength⟩ | ⟨hmonth, hlength⟩
  · rw [hlength]
    by_cases hleap : IsLeap year
    · rw [if_pos ((isLeapYear_iff year).2 hleap)]
      simp only [hleap, implies_true, and_true]
      omega
    · rw [if_neg (mt (isLeapYear_iff year).1 hleap)]
      simp only [hleap, imp_false]
      omega
  · omega
  · omega

end Calendar

namespace CivilDate

theorem exists?_iff (date : CivilDate) : date.exists? = true ↔ date.Valid := by
  rw [exists?, decide_eq_true_iff]
  constructor
  · rintro ⟨hfirst, hlast, hpos, hle⟩
    obtain ⟨h31, hshort, hfebruary⟩ := (le_daysInMonth_iff _ ⟨hfirst, hlast⟩ _).1 hle
    exact ⟨hfirst, hlast, hpos, h31, hshort, hfebruary⟩
  · rintro ⟨hfirst, hlast, hpos, h31, hshort, hfebruary⟩
    exact ⟨hfirst, hlast, hpos,
      (le_daysInMonth_iff _ ⟨hfirst, hlast⟩ _).2 ⟨h31, hshort, hfebruary⟩⟩

instance (date : CivilDate) : Decidable date.Valid := decidable_of_iff _ date.exists?_iff

/-- A month ends on the day that the table gives as its length. -/
theorem valid_iff_day_le {date : CivilDate} (hmonth : 1 ≤ date.month ∧ date.month ≤ 12) :
    date.Valid ↔ 1 ≤ date.day ∧ date.day ≤ daysInMonth date.year date.month := by
  rw [← exists?_iff, exists?, decide_eq_true_iff]
  exact ⟨fun h => h.2.2, fun h => ⟨hmonth.1, hmonth.2, h⟩⟩

end CivilDate

namespace Calendar

/-! ## Years that begin in March -/

/-- Days from the first day of era 0 to the first of March of a year. -/
def daysToMarch (year : Int) : Int := 365 * year + year / 4 - year / 100 + year / 400

theorem daysToMarch_mono {first last : Int} (h : first ≤ last) :
    daysToMarch first ≤ daysToMarch last := by
  unfold daysToMarch
  omega

theorem daysToMarch_succ (year : Int) :
    daysToMarch (year + 1) = daysToMarch year + if isLeapYear (year + 1) then 366 else 365 := by
  have hleap := isLeapYear_iff (year + 1)
  unfold IsLeap at hleap
  unfold daysToMarch
  split
  · rename_i hyes
    have hrule := hleap.1 hyes
    omega
  · rename_i hno
    have hrule := mt hleap.2 hno
    omega

/-- Whole eras in front of a year do not change what happens in it. -/
theorem daysToMarch_era (year : Int) :
    daysToMarch year = year / 400 * daysPerEra + daysToMarch (year % 400) ∧
      daysToMarch (year + 1) = year / 400 * daysPerEra + daysToMarch (year % 400 + 1) := by
  unfold daysToMarch daysPerEra
  omega

/-- Within the first era the days before a year need no eras. -/
theorem daysBeforeYear_eq {year : Int} (h : 0 ≤ year ∧ year < 400) :
    daysBeforeYear year = daysToMarch year := by
  rw [daysBeforeYear, Int.tdiv_eq_ediv_of_nonneg h.1, Int.tdiv_eq_ediv_of_nonneg h.1, daysToMarch]
  omega

/-- The days up to a year, era by era and then within the era. -/
theorem daysToMarch_eq (year : Int) :
    daysToMarch year = year / 400 * 146097 + daysBeforeYear (year - year / 400 * 400) := by
  have hofEra : year - year / 400 * 400 = year % 400 := by omega
  rw [(daysToMarch_era year).1, hofEra, daysBeforeYear_eq (by omega), daysPerEra]

/-- Each year of an era is found from its first and from its last day. -/
theorem yearOfEraDay_ends : ∀ year < 400, yearOfEraDay (daysToMarch (year : Nat)) = year ∧
    yearOfEraDay (daysToMarch ((year : Nat) + 1) - 1) = year := by
  decide +kernel

theorem yearOfEraDay_mono {first last : Int} (hfirst : 0 ≤ first) (h : first ≤ last)
    (hlast : last < 146097) : yearOfEraDay first ≤ yearOfEraDay last := by
  have hnonneg : 0 ≤ last := by omega
  rw [yearOfEraDay, yearOfEraDay, Int.tdiv_eq_ediv_of_nonneg hfirst,
    Int.tdiv_eq_ediv_of_nonneg hfirst, Int.tdiv_eq_ediv_of_nonneg hfirst,
    Int.tdiv_eq_ediv_of_nonneg hnonneg, Int.tdiv_eq_ediv_of_nonneg hnonneg,
    Int.tdiv_eq_ediv_of_nonneg hnonneg, Int.tdiv_eq_ediv_of_nonneg (by omega),
    Int.tdiv_eq_ediv_of_nonneg (by omega)]
  apply Int.ediv_le_ediv (by decide)
  have hyears : first - first / 1460 ≤ last - last / 1460 := by omega
  have hcenturies : first / 36524 - first / 146096 ≤ last / 36524 - last / 146096 := by omega
  omega

/-- Each year of an era is found from all of its days. -/
theorem yearOfEraDay_eq {year day : Int} (hyear : 0 ≤ year ∧ year < 400)
    (hfirst : daysToMarch year ≤ day) (hlast : day < daysToMarch (year + 1)) :
    yearOfEraDay day = year := by
  obtain ⟨n, rfl⟩ := Int.eq_ofNat_of_zero_le hyear.1
  obtain ⟨hleft, hright⟩ := yearOfEraDay_ends n (by omega)
  have hstart : 0 ≤ daysToMarch n := daysToMarch_mono hyear.1
  have hend : daysToMarch (n + 1) ≤ 146097 :=
    daysToMarch_mono (show (n : Int) + 1 ≤ 400 by omega)
  have hlower : (n : Int) ≤ yearOfEraDay day := by
    have h := yearOfEraDay_mono hstart hfirst (by omega)
    rwa [hleft] at h
  have hupper : yearOfEraDay day ≤ n := by
    have h := yearOfEraDay_mono (show 0 ≤ day by omega) (Int.le_sub_one_of_lt hlast) (by omega)
    rwa [hright] at h
  omega

/-- Every day of an era falls in one of its years. -/
theorem exists_yearOfEra {day : Int} (h : 0 ≤ day ∧ day < 146097) :
    ∃ year, (0 ≤ year ∧ year < 400) ∧ daysToMarch year ≤ day ∧ day < daysToMarch (year + 1) := by
  have hsearch (n : Nat) : n ≤ 400 → day < daysToMarch n →
      ∃ year, (0 ≤ year ∧ year < 400) ∧ daysToMarch year ≤ day ∧
        day < daysToMarch (year + 1) := by
    induction n with
    | zero =>
      intro _ hbefore
      exact absurd h.1 (Int.not_le.2 hbefore)
    | succ n ih =>
      intro hn hbefore
      by_cases hday : day < daysToMarch n
      · exact ih (by omega) hday
      · exact ⟨n, by omega, Int.not_lt.1 hday, hbefore⟩
  exact hsearch 400 (Nat.le_refl _) h.2

/-! ## Months -/

theorem daysBeforeMonth_eq {month : Int} (h : 0 ≤ month) :
    daysBeforeMonth month = (153 * month + 2) / 5 :=
  Int.tdiv_eq_ediv_of_nonneg (by omega)

/-- The month of a day is the one whose days it is among. -/
theorem monthOfYearDay_eq_iff {day month : Int} (hday : 0 ≤ day) (hmonth : 0 ≤ month) :
    monthOfYearDay day = month ↔
      daysBeforeMonth month ≤ day ∧ day < daysBeforeMonth (month + 1) := by
  rw [monthOfYearDay, Int.tdiv_eq_ediv_of_nonneg (by omega), daysBeforeMonth_eq hmonth,
    daysBeforeMonth_eq (by omega)]
  omega

/-- The count of days before a month agrees with the table of lengths. -/
theorem daysBeforeMonth_succ (year : Int) {month : Nat} (h : 1 ≤ month ∧ month ≤ 12)
    (hfebruary : month ≠ 2) :
    daysBeforeMonth (marchMonth month + 1) =
      daysBeforeMonth (marchMonth month) + daysInMonth year month := by
  obtain rfl | rfl | rfl | rfl | rfl | rfl | rfl | rfl | rfl | rfl | rfl :
      month = 1 ∨ month = 3 ∨ month = 4 ∨ month = 5 ∨ month = 6 ∨ month = 7 ∨ month = 8 ∨
        month = 9 ∨ month = 10 ∨ month = 11 ∨ month = 12 := by omega
  all_goals rfl

/-- February takes the days that are left of the year before. -/
theorem daysToMarch_eq_add_february (year : Int) :
    daysToMarch year = daysToMarch (year - 1) + daysBeforeMonth 11 + daysInMonth year 2 := by
  have hyear := daysToMarch_succ (year - 1)
  rw [Int.sub_add_cancel] at hyear
  have hbefore : daysBeforeMonth 11 = 337 := rfl
  have hlength : daysInMonth year 2 = if isLeapYear year then 29 else 28 := rfl
  rw [hyear, hbefore, hlength]
  split <;> omega

/-! ## March dates -/

/-- The month, counted from March, and the day exist in the year that begins in March. -/
structure IsMarchDate (year month day : Int) : Prop where
  month_nonneg : 0 ≤ month
  month_lt : month < 12
  day_pos : 1 ≤ day
  day_le : daysBeforeMonth month + day ≤ daysBeforeMonth (month + 1)
  in_year : daysToMarch year + daysBeforeMonth month + day ≤ daysToMarch (year + 1)

/-- Days from the first day of era 0 to a March date. -/
def marchDay (year month day : Int) : Int := daysToMarch year + daysBeforeMonth month + day - 1

/-- The civil date of a March date. -/
def civilOf (year month day : Int) : CivilDate :=
  ⟨if civilMonth month ≤ 2 then year + 1 else year, (civilMonth month).toNat, day.toNat⟩

/-- Every day is the day of a March date. -/
theorem exists_marchDate (n : Int) :
    ∃ year month day, IsMarchDate year month day ∧ marchDay year month day = n := by
  obtain ⟨yearOfEra, hyear, hfirst, hlast⟩ :=
    exists_yearOfEra (show 0 ≤ n % 146097 ∧ n % 146097 < 146097 by omega)
  obtain ⟨hstart, hend⟩ := daysToMarch_era (n / 146097 * 400 + yearOfEra)
  have hera : (n / 146097 * 400 + yearOfEra) / 400 = n / 146097 := by omega
  have hofEra : (n / 146097 * 400 + yearOfEra) % 400 = yearOfEra := by omega
  rw [hera, hofEra, daysPerEra] at hstart hend
  have hlength := daysToMarch_succ yearOfEra
  generalize hdayOfYear : n % 146097 - daysToMarch yearOfEra = dayOfYear
  have hbounds : 0 ≤ dayOfYear ∧ dayOfYear < 366 := by
    split at hlength <;> omega
  have hmonth : 0 ≤ monthOfYearDay dayOfYear ∧ monthOfYearDay dayOfYear < 12 := by
    rw [monthOfYearDay, Int.tdiv_eq_ediv_of_nonneg (by omega)]
    omega
  obtain ⟨hbefore, hafter⟩ := (monthOfYearDay_eq_iff hbounds.1 hmonth.1).1 rfl
  generalize monthOfYearDay dayOfYear = month at hmonth hbefore hafter
  refine ⟨n / 146097 * 400 + yearOfEra, month, dayOfYear - daysBeforeMonth month + 1,
    ⟨hmonth.1, hmonth.2, ?_, ?_, ?_⟩, ?_⟩
  · omega
  · omega
  · omega
  · rw [marchDay]
    omega

/-- A March date is found from its day. -/
theorem ofDayNumber_marchDay {year month day : Int} (h : IsMarchDate year month day) :
    CivilDate.ofDayNumber (marchDay year month day - eraOffset) = civilOf year month day := by
  obtain ⟨hmonth, -, hday, hlength, hyear⟩ := h
  have hnonneg : 0 ≤ daysBeforeMonth month := by
    rw [daysBeforeMonth_eq hmonth]
    omega
  have hofEra : 0 ≤ year % 400 ∧ year % 400 < 400 := by omega
  obtain ⟨hstart, hend⟩ := daysToMarch_era year
  have hfirst : 0 ≤ daysToMarch (year % 400) := daysToMarch_mono hofEra.1
  have hlast : daysToMarch (year % 400 + 1) ≤ 146097 :=
    daysToMarch_mono (show year % 400 + 1 ≤ 400 by omega)
  rw [hstart, hend, daysPerEra] at hyear
  -- the parts of the day, in the order in which they are taken off it
  have hera : eraOfDay (marchDay year month day) = year / 400 := by
    rw [eraOfDay_eq, marchDay, hstart, daysPerEra]
    omega
  have hdayOfEra : marchDay year month day - year / 400 * daysPerEra =
      daysToMarch (year % 400) + daysBeforeMonth month + day - 1 := by
    rw [marchDay, hstart]
    omega
  have hyearOfEra : yearOfEraDay (daysToMarch (year % 400) + daysBeforeMonth month + day - 1) =
      year % 400 := yearOfEraDay_eq hofEra (by omega) (by omega)
  have hdayOfYear : daysToMarch (year % 400) + daysBeforeMonth month + day - 1 -
      daysToMarch (year % 400) = daysBeforeMonth month + day - 1 := by omega
  have hmonthOfYear : monthOfYearDay (daysBeforeMonth month + day - 1) = month :=
    (monthOfYearDay_eq_iff (by omega) hmonth).2 (by omega)
  have hdayOfMonth : daysBeforeMonth month + day - 1 - daysBeforeMonth month + 1 = day := by omega
  have hcivilYear : year % 400 + year / 400 * 400 = year := by omega
  simp only [CivilDate.ofDayNumber, Int.sub_add_cancel, hera, hdayOfEra, hyearOfEra,
    daysBeforeYear_eq hofEra, hdayOfYear, hmonthOfYear, hdayOfMonth, hcivilYear, civilOf]

theorem marchMonth_bounds {month : Nat} (h : 1 ≤ month ∧ month ≤ 12) :
    0 ≤ marchMonth month ∧ marchMonth month < 12 := by
  unfold marchMonth
  split <;> omega

end Calendar

namespace CivilDate

/-! ## Both directions -/

theorem dayNumber_eq (date : CivilDate) :
    dayNumber date =
      marchDay (marchYear date.year date.month) (marchMonth date.month) date.day - eraOffset := by
  rw [dayNumber, eraOfYear_eq, marchDay, daysToMarch_eq, daysPerEra]
  omega

/-- Valid dates are the March dates, with the months counted differently. -/
theorem valid_iff_isMarchDate {date : CivilDate} (hmonth : 1 ≤ date.month ∧ date.month ≤ 12) :
    date.Valid ↔
      IsMarchDate (marchYear date.year date.month) (marchMonth date.month) date.day := by
  have hbounds := marchMonth_bounds hmonth
  have hlength := daysToMarch_succ (marchYear date.year date.month)
  rw [valid_iff_day_le hmonth]
  by_cases hfebruary : date.month = 2
  · have hleft := daysToMarch_eq_add_february date.year
    have hyear : marchYear date.year date.month = date.year - 1 := by
      rw [hfebruary]
      rfl
    have hmarch : marchMonth date.month = 11 := by
      rw [hfebruary]
      rfl
    have hbefore : daysBeforeMonth 11 = 337 ∧ daysBeforeMonth (11 + 1) = 367 := by decide
    rw [hyear, Int.sub_add_cancel] at hlength
    rw [hyear, hmarch, hfebruary]
    constructor
    · rintro ⟨hfirst, hlast⟩
      refine ⟨by decide, by decide, by omega, ?_, ?_⟩
      · split at hlength <;> omega
      · rw [Int.sub_add_cancel]
        omega
    · rintro ⟨-, -, hfirst, -, hinYear⟩
      rw [Int.sub_add_cancel] at hinYear
      omega
  · have hnext := daysBeforeMonth_succ date.year hmonth hfebruary
    have hbefore : daysBeforeMonth (marchMonth date.month + 1) ≤ 337 := by
      rw [daysBeforeMonth_eq (by omega)]
      unfold marchMonth
      split <;> omega
    constructor
    · rintro ⟨hfirst, hlast⟩
      refine ⟨hbounds.1, hbounds.2, by omega, by omega, ?_⟩
      split at hlength <;> omega
    · rintro ⟨-, -, hfirst, hlast, -⟩
      omega

/-- The civil date of a March date has its year and month, counted from March. -/
theorem march_civilOf (year day : Int) {month : Int} (h : 0 ≤ month ∧ month < 12) :
    marchYear (civilOf year month day).year (civilOf year month day).month = year ∧
      marchMonth (civilOf year month day).month = month ∧
      1 ≤ (civilOf year month day).month ∧ (civilOf year month day).month ≤ 12 := by
  unfold civilOf civilMonth marchYear marchMonth
  dsimp only
  by_cases hlate : month < 10
  · rw [if_pos hlate, if_neg (by omega), if_neg (by omega), if_neg (by omega)]
    omega
  · rw [if_neg hlate, if_pos (by omega), if_pos (by omega), if_pos (by omega)]
    omega

theorem civilOf_march {date : CivilDate} (h : 1 ≤ date.month ∧ date.month ≤ 12) :
    civilOf (marchYear date.year date.month) (marchMonth date.month) date.day = date := by
  have hmonth : civilMonth (marchMonth date.month) = date.month := by
    unfold civilMonth marchMonth
    split <;> split <;> omega
  have hyear : (if (date.month : Int) ≤ 2 then marchYear date.year date.month + 1
      else marchYear date.year date.month) = date.year := by
    unfold marchYear
    split <;> split <;> omega
  rw [civilOf, hmonth, hyear, Int.toNat_natCast, Int.toNat_natCast]

/-- A valid date is found from its day. -/
theorem ofDayNumber_dayNumber {date : CivilDate} (h : date.Valid) :
    ofDayNumber (dayNumber date) = date := by
  have hmonth : 1 ≤ date.month ∧ date.month ≤ 12 := ⟨h.month_pos, h.month_le⟩
  rw [dayNumber_eq, ofDayNumber_marchDay ((valid_iff_isMarchDate hmonth).1 h),
    civilOf_march hmonth]

/-- Every day falls on a valid date, and is the day of that date. -/
theorem dayNumber_ofDayNumber (day : Int) :
    (ofDayNumber day).Valid ∧ dayNumber (ofDayNumber day) = day := by
  obtain ⟨year, month, dayOfMonth, hmarch, hday⟩ := exists_marchDate (day + eraOffset)
  have hfound : ofDayNumber day = civilOf year month dayOfMonth := by
    rw [← ofDayNumber_marchDay hmarch, hday, Int.add_sub_cancel]
  obtain ⟨hyear, hmonth, hbounds⟩ :=
    march_civilOf year dayOfMonth ⟨hmarch.month_nonneg, hmarch.month_lt⟩
  have hcast : ((civilOf year month dayOfMonth).day : Int) = dayOfMonth :=
    Int.toNat_of_nonneg (Int.le_of_lt hmarch.day_pos)
  rw [hfound]
  constructor
  · rw [valid_iff_isMarchDate hbounds, hyear, hmonth, hcast]
    exact hmarch
  · rw [dayNumber_eq, hyear, hmonth, hcast, hday, Int.add_sub_cancel]

/-! ## The day after -/

/-- The date of the day after: in the same month, or the first of the next one. -/
def next (date : CivilDate) : CivilDate :=
  if Valid ⟨date.year, date.month, date.day + 1⟩ then ⟨date.year, date.month, date.day + 1⟩
  else if date.month < 12 then ⟨date.year, date.month + 1, 1⟩
  else ⟨date.year + 1, 1, 1⟩

theorem valid_first (year : Int) {month : Nat} (h : 1 ≤ month ∧ month ≤ 12) :
    Valid ⟨year, month, 1⟩ where
  month_pos := h.1
  month_le := h.2
  day_pos := Nat.le_refl 1
  day_le := Nat.le_add_left 1 30
  short _ := Nat.le_add_left 1 29
  february _ := ⟨Nat.le_add_left 1 28, fun h => by cases h⟩

/-- The first of a month follows the last day of the month before. -/
theorem dayNumber_first {date first : CivilDate} (hmonth : 1 ≤ date.month ∧ date.month ≤ 12)
    (hlast : date.day = daysInMonth date.year date.month) (hfirst : first.day = 1)
    (hnext : first.year = date.year ∧ first.month = date.month + 1 ∧ date.month < 12 ∨
      first.year = date.year + 1 ∧ first.month = 1 ∧ date.month = 12) :
    dayNumber first = dayNumber date + 1 := by
  rw [dayNumber_eq, dayNumber_eq, marchDay, marchDay, hfirst, hlast]
  by_cases hfebruary : date.month = 2
  · obtain ⟨hyear, hmarch⟩ : first.year = date.year ∧ first.month = 3 := by omega
    have hleft := daysToMarch_eq_add_february date.year
    have hbefore : daysBeforeMonth 0 = 0 := rfl
    rw [hyear, hmarch, hfebruary]
    show daysToMarch date.year + daysBeforeMonth 0 + 1 - 1 - eraOffset =
      daysToMarch (date.year - 1) + daysBeforeMonth 11 + daysInMonth date.year 2 - 1 - eraOffset + 1
    omega
  · have hyear : marchYear first.year first.month = marchYear date.year date.month := by
      unfold marchYear
      split <;> split <;> omega
    have hmarch : marchMonth first.month = marchMonth date.month + 1 := by
      unfold marchMonth
      split <;> split <;> omega
    have hlength := daysBeforeMonth_succ date.year hmonth hfebruary
    rw [hyear, hmarch, hlength]
    omega

/-- The day after a valid date is the next day. -/
theorem dayNumber_next {date : CivilDate} (h : date.Valid) :
    date.next.Valid ∧ dayNumber date.next = dayNumber date + 1 := by
  have hmonth : 1 ≤ date.month ∧ date.month ≤ 12 := ⟨h.month_pos, h.month_le⟩
  unfold next
  split
  · rename_i hsame
    refine ⟨hsame, ?_⟩
    rw [dayNumber_eq, dayNumber_eq, marchDay, marchDay]
    dsimp only
    omega
  · rename_i hover
    have hlast : date.day = daysInMonth date.year date.month := by
      have hle := ((valid_iff_day_le hmonth).1 h).2
      have hlt := mt (@valid_iff_day_le ⟨date.year, date.month, date.day + 1⟩ hmonth).2 hover
      dsimp only at hlt
      omega
    split
    · rename_i hlt
      exact ⟨valid_first _ (by omega), dayNumber_first hmonth hlast rfl (Or.inl ⟨rfl, rfl, hlt⟩)⟩
    · rename_i hnot
      exact ⟨valid_first _ (by decide),
        dayNumber_first hmonth hlast rfl (Or.inr ⟨rfl, rfl, by omega⟩)⟩

theorem ofDayNumber_succ (day : Int) : ofDayNumber (day + 1) = (ofDayNumber day).next := by
  obtain ⟨hvalid, hday⟩ := dayNumber_ofDayNumber day
  obtain ⟨hnext, hafter⟩ := dayNumber_next hvalid
  rw [← ofDayNumber_dayNumber hnext, hafter, hday]

/-! ## The order of dates -/

/-- By year, then by month, then by day. -/
def compare : CivilDate → CivilDate → Ordering :=
  compareLex (compareOn year) (compareLex (compareOn month) (compareOn day))

instance : Std.TransCmp compare :=
  inferInstanceAs (Std.TransCmp (compareLex _ (compareLex _ _)))

theorem compare_next (date : CivilDate) : date.compare date.next = .lt := by
  have hnat (n : Nat) : Ord.compare n (n + 1) = .lt := Nat.compare_eq_lt.2 (Nat.lt_succ_self n)
  have hint (n : Int) : Ord.compare n (n + 1) = .lt := Int.compare_eq_lt.2 (Int.lt_succ n)
  unfold next
  split
  · simp [compare, compareLex, compareOn, hnat]
  split
  · simp [compare, compareLex, compareOn, hnat]
  · simp [compare, compareLex, compareOn, hint]

/-- A later day has a later date, by induction on the days between them. -/
theorem compare_ofDayNumber_add (day : Int) (between : Nat) :
    (ofDayNumber day).compare (ofDayNumber (day + (between + 1 : Nat))) = .lt := by
  induction between with
  | zero =>
    have hnext := compare_next (ofDayNumber day)
    rwa [← ofDayNumber_succ] at hnext
  | succ between ih =>
    have hnext := compare_next (ofDayNumber (day + (between + 1 : Nat)))
    rw [← ofDayNumber_succ, Int.add_assoc] at hnext
    exact Std.TransCmp.lt_trans ih hnext

/-- Dates are ordered as their days. -/
theorem compare_ofDayNumber (first second : Int) :
    (ofDayNumber first).compare (ofDayNumber second) = Ord.compare first second := by
  have hlt {a b : Int} (h : a < b) : (ofDayNumber a).compare (ofDayNumber b) = .lt := by
    obtain ⟨between, rfl⟩ := Int.le.dest (Int.add_one_le_of_lt h)
    have hstep := compare_ofDayNumber_add a between
    rwa [Int.natCast_add, Int.add_comm (between : Int), ← Int.add_assoc] at hstep
  rcases Int.lt_trichotomy first second with h | rfl | h
  · rw [hlt h, Int.compare_eq_lt.2 h]
  · rw [Int.compare_eq_eq.2 rfl]
    exact Std.ReflCmp.compare_self
  · rw [Int.compare_eq_gt.2 h]
    exact Std.OrientedCmp.gt_of_lt (hlt h)

end CivilDate

end ResultSet
