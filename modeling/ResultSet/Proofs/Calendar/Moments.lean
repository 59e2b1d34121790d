import ResultSet.Calendar.Moment
import ResultSet.Proofs.Calendar.Overflow

/-!
# Moments and their components

What the checked constructors make of their components, and what is read back from it.

* `ofDate_eq_some_iff`, `ofDateTime_eq_some_iff` and `ofTimestamp_eq_some_iff` say which moment a
  constructor gives and when it gives one.
* `Dated` is the range of days that have a date, and `exists_date_iff` says so.  All constructors
  stay in it.
* `date_eq` and `clock_eq` read the components back, `clock_valid` reads a time of day from any
  number of microseconds within the day.
* `calendar_exact` puts this together with the calendar: the components that name a date and a
  time are exactly those that make a moment, in words of 32 bits throughout.
-/

namespace ResultSet

open Calendar

/-! ## Times of day -/

/-- The time stands on a clock of 24 hours. -/
structure ClockTime.Valid (time : ClockTime) : Prop where
  hour_lt : time.hour < 24
  minute_lt : time.minute < 60
  second_lt : time.second < 60
  micros_lt : time.micros < 1000000

/-- Microseconds from midnight to the time. -/
def ClockTime.sinceMidnight (time : ClockTime) : Nat :=
  (time.hour * 3600 + time.minute * 60 + time.second) * 1000000 + time.micros

/-- Midnight. -/
def ClockTime.midnight : ClockTime := ⟨0, 0, 0, 0⟩

theorem ClockTime.Valid.sinceMidnight_lt {time : ClockTime} (h : time.Valid) :
    time.sinceMidnight < Moment.microsPerDay := by
  obtain ⟨hhour, hminute, hsecond, hmicros⟩ := h
  rw [sinceMidnight, Moment.microsPerDay, Moment.microsPerSecond]
  omega

namespace Moment

theorem microsOfClock?_eq_some_iff {time : ClockTime} {micros : Unsigned 64} :
    microsOfClock? time = some micros ↔ time.Valid ∧ micros.val = time.sinceMidnight := by
  unfold microsOfClock?
  split
  · rename_i h
    have hvalid : time.Valid := ⟨h.1, h.2.1, h.2.2.1, h.2.2.2⟩
    rw [Unsigned.ofNat?_eq_some_iff]
    exact ⟨fun hmicros => ⟨hvalid, hmicros⟩, fun hmicros => hmicros.2⟩
  · rename_i h
    constructor
    · intro hnone
      cases hnone
    · rintro ⟨⟨hhour, hminute, hsecond, hmicros⟩, -⟩
      exact absurd ⟨hhour, hminute, hsecond, hmicros⟩ h

/-! ## Constructors -/

theorem ofDate_eq_some_iff {date : CivilDate} {m : Moment} :
    ofDate date = some (some m) ↔ date.Valid ∧ m.day.val = dayNumber date ∧
      InWord (m.day.val + eraOffset) ∧ m.micros.val = 0 ∧ m.kind = .date := by
  rw [ofDate, Option.map_eq_some_iff]
  constructor
  · rintro ⟨found, hfound, h⟩
    obtain ⟨day, rfl, rfl⟩ := Option.map_eq_some_iff.1 h
    obtain ⟨hvalid, hday, hshifted⟩ := CivilDate.dayNumber?_eq_some_iff.1 hfound
    exact ⟨hvalid, hday, hshifted, rfl, rfl⟩
  · rintro ⟨hvalid, hday, hshifted, hmicros, hkind⟩
    refine ⟨_, CivilDate.dayNumber?_eq_some_iff.2 ⟨hvalid, hday, hshifted⟩, ?_⟩
    obtain ⟨day, micros, kind⟩ := m
    have hzero : micros = Unsigned.zero 64 := Unsigned.ext hmicros
    rw [Option.map_some, hzero]
    cases hkind
    rfl

theorem ofDate_of_not_valid {date : CivilDate} (h : ¬date.Valid) : ofDate date = some none := by
  rw [ofDate, CivilDate.dayNumber?_of_not_valid h]
  rfl

theorem ofDateTime_eq_some_iff {date : CivilDate} {time : ClockTime} {m : Moment} :
    ofDateTime date time = some (some m) ↔ date.Valid ∧ time.Valid ∧ m.day.val = dayNumber date ∧
      InWord (m.day.val + eraOffset) ∧ m.micros.val = time.sinceMidnight ∧
      m.kind = .dateTime := by
  unfold ofDateTime
  split
  · rename_i hnone
    constructor
    · intro h
      cases h
    · rintro ⟨-, htime, -, -, hmicros, -⟩
      rw [microsOfClock?_eq_some_iff.2 ⟨htime, hmicros⟩] at hnone
      cases hnone
  · rename_i micros hmicros
    obtain ⟨htime, hsince⟩ := microsOfClock?_eq_some_iff.1 hmicros
    rw [Option.map_eq_some_iff]
    constructor
    · rintro ⟨found, hfound, h⟩
      obtain ⟨day, rfl, rfl⟩ := Option.map_eq_some_iff.1 h
      obtain ⟨hvalid, hday, hshifted⟩ := CivilDate.dayNumber?_eq_some_iff.1 hfound
      exact ⟨hvalid, htime, hday, hshifted, hsince, rfl⟩
    · rintro ⟨hvalid, -, hday, hshifted, hown, hkind⟩
      refine ⟨_, CivilDate.dayNumber?_eq_some_iff.2 ⟨hvalid, hday, hshifted⟩, ?_⟩
      rw [Option.map_some, Unsigned.ext (hsince.trans hown.symm), ← hkind]

theorem ofDateTime_of_not_valid {date : CivilDate} {time : ClockTime}
    (h : ¬(date.Valid ∧ time.Valid)) : ofDateTime date time = some none := by
  unfold ofDateTime
  split
  · rfl
  · rename_i micros hmicros
    have htime := (microsOfClock?_eq_some_iff.1 hmicros).1
    rw [CivilDate.dayNumber?_of_not_valid fun hvalid => h ⟨hvalid, htime⟩]
    rfl

/-- A date whose day is a word, counted from either beginning, makes a moment. -/
theorem exists_ofDate {date : CivilDate} (h : date.Valid) (hday : InWord (dayNumber date))
    (hshifted : InWord (dayNumber date + eraOffset)) : ∃ m, ofDate date = some (some m) :=
  ⟨⟨⟨dayNumber date, hday.1, Int.lt_of_le_sub_one hday.2⟩, Unsigned.zero 64, .date⟩,
    ofDate_eq_some_iff.2 ⟨h, rfl, hshifted, rfl, rfl⟩⟩

theorem exists_ofDateTime {date : CivilDate} {time : ClockTime} (h : date.Valid)
    (htime : time.Valid) (hday : InWord (dayNumber date))
    (hshifted : InWord (dayNumber date + eraOffset)) :
    ∃ m, ofDateTime date time = some (some m) := by
  have hfits : time.sinceMidnight < 2 ^ 64 := by
    have hlt := htime.sinceMidnight_lt
    rw [microsPerDay, microsPerSecond] at hlt
    omega
  exact ⟨⟨⟨dayNumber date, hday.1, Int.lt_of_le_sub_one hday.2⟩, ⟨time.sinceMidnight, hfits⟩,
    .dateTime⟩, ofDateTime_eq_some_iff.2 ⟨h, htime, rfl, hshifted, rfl, rfl⟩⟩

/-- Day and microseconds are the quotient and the remainder of the timestamp. -/
theorem ofTimestamp_eq_some_iff {t : Signed 64} {m : Moment} :
    ofTimestamp t = some m ↔ m.day.val = t.val / microsPerDay ∧
      (m.micros.val : Int) = t.val % microsPerDay ∧ m.kind = .dateTime := by
  have hnonneg : 0 ≤ t.val % microsPerDay := Int.emod_nonneg _ (by decide)
  rw [ofTimestamp]
  constructor
  · intro h
    split at h
    · rename_i day micros hday hmicros
      cases h
      have hval := Unsigned.ofNat?_eq_some_iff.1 hmicros
      have hrest : (micros.val : Int) = t.val % microsPerDay := by omega
      exact ⟨Signed.val_of_ofInt? hday, hrest, rfl⟩
    · cases h
  · rintro ⟨hday, hmicros, hkind⟩
    have hdayWord : Signed.ofInt? 32 (t.val / microsPerDay) = some m.day :=
      Signed.ofInt?_eq_some_iff.2 hday
    have hmicrosWord : Unsigned.ofNat? 64 (t.val % microsPerDay).toNat = some m.micros :=
      Unsigned.ofNat?_eq_some_iff.2 (by omega)
    rw [hdayWord, hmicrosWord, ← hkind]

theorem micros_lt_of_ofTimestamp {t : Signed 64} {m : Moment} (h : ofTimestamp t = some m) :
    m.micros.val < microsPerDay := by
  have hmicros := (ofTimestamp_eq_some_iff.1 h).2.1
  have hbelow : t.val % microsPerDay < microsPerDay := Int.emod_lt_of_pos _ (by decide)
  omega

/-- Every timestamp makes a moment. -/
theorem exists_ofTimestamp (t : Signed 64) : ∃ m, ofTimestamp t = some m := by
  have hmin := t.min_le
  have hmax := t.lt_max
  have hday : InWord (t.val / microsPerDay) := by
    rw [InWord, microsPerDay, microsPerSecond]
    omega
  have hnonneg : 0 ≤ t.val % microsPerDay := Int.emod_nonneg _ (by decide)
  have hmicros : (t.val % microsPerDay).toNat < 2 ^ 64 := by
    rw [microsPerDay, microsPerSecond]
    omega
  exact ⟨⟨⟨t.val / microsPerDay, hday.1, Int.lt_of_le_sub_one hday.2⟩,
    ⟨(t.val % microsPerDay).toNat, hmicros⟩, .dateTime⟩,
    ofTimestamp_eq_some_iff.2 ⟨rfl, Int.toNat_of_nonneg hnonneg, rfl⟩⟩

/-! ## Components -/

/-- The day of the moment has a date. -/
def Dated (m : Moment) : Prop := m.day.val ≤ lastDay

instance (m : Moment) : Decidable m.Dated := Int.decLe _ _

theorem date_eq_some_iff {m : Moment} {date : CivilDate} :
    m.date = some date ↔ m.Dated ∧ date = CivilDate.ofDayNumber m.day.val := by
  rw [Moment.date, ofDayNumberInWord?_eq_some_iff m.day.inWord, inWord_shifted_iff, Dated]

theorem Dated.date_eq {m : Moment} (h : m.Dated) :
    m.date = some (CivilDate.ofDayNumber m.day.val) := date_eq_some_iff.2 ⟨h, rfl⟩

/-- The dates of all later days leave the word. -/
theorem exists_date_iff {m : Moment} : (∃ date, m.date = some date) ↔ m.Dated :=
  ⟨fun ⟨_, h⟩ => (date_eq_some_iff.1 h).1, fun h => ⟨_, h.date_eq⟩⟩

theorem bytes_eq_none_iff {m : Moment} : m.bytes = none ↔ ¬m.Dated := by
  rw [bytes, text, Option.map_eq_none_iff, Option.map_eq_none_iff, ← exists_date_iff]
  exact Option.eq_none_iff_forall_ne_some.trans not_exists.symm

/-- The date of a moment exists, and is the date of its day. -/
theorem date_valid {m : Moment} {date : CivilDate} (h : m.date = some date) :
    date.Valid ∧ dayNumber date = m.day.val := by
  obtain ⟨-, rfl⟩ := date_eq_some_iff.1 h
  exact CivilDate.dayNumber_ofDayNumber m.day.val

/-- The date that a moment was made from is read back. -/
theorem date_eq {m : Moment} {date : CivilDate} (h : date.Valid)
    (hday : m.day.val = dayNumber date) (hshifted : InWord (m.day.val + eraOffset)) :
    m.date = some date := by
  rw [date_eq_some_iff, Dated, ← inWord_shifted_iff, hday, CivilDate.ofDayNumber_dayNumber h]
  exact ⟨hday ▸ hshifted, rfl⟩

/-- The time of day that a moment was made from is read back. -/
theorem clock_eq {m : Moment} {time : ClockTime} (h : time.Valid)
    (hmicros : m.micros.val = time.sinceMidnight) : m.clock = time := by
  obtain ⟨hhour, hminute, hsecond, hmicro⟩ := h
  obtain ⟨hour, minute, second, micro⟩ := time
  rw [ClockTime.sinceMidnight] at hmicros
  dsimp only at hhour hminute hsecond hmicro hmicros
  rw [clock, Moment.hour, Moment.minute, Moment.second, microsecond, hmicros, microsPerSecond]
  congr 1 <;> omega

/-- Microseconds within the day are a time of day. -/
theorem clock_valid {m : Moment} (h : m.micros.val < microsPerDay) :
    m.clock.Valid ∧ m.clock.sinceMidnight = m.micros.val := by
  rw [microsPerDay, microsPerSecond] at h
  rw [clock, Moment.hour, Moment.minute, Moment.second, microsecond, ClockTime.sinceMidnight,
    microsPerSecond]
  refine ⟨⟨?_, ?_, ?_, ?_⟩, ?_⟩ <;> dsimp only <;> omega

/-! ## The calendar of moments -/

theorem ofDate_components {date : CivilDate} {m : Moment} (h : ofDate date = some (some m)) :
    m.kind = .date ∧ m.date = some date ∧ m.clock = .midnight := by
  obtain ⟨hvalid, hday, hshifted, hmicros, hkind⟩ := ofDate_eq_some_iff.1 h
  exact ⟨hkind, date_eq hvalid hday hshifted,
    clock_eq ⟨by decide, by decide, by decide, by decide⟩ hmicros⟩

theorem ofDateTime_components {date : CivilDate} {time : ClockTime} {m : Moment}
    (h : ofDateTime date time = some (some m)) :
    m.kind = .dateTime ∧ m.date = some date ∧ m.clock = time := by
  obtain ⟨hvalid, htime, hday, hshifted, hmicros, hkind⟩ := ofDateTime_eq_some_iff.1 h
  exact ⟨hkind, date_eq hvalid hday hshifted, clock_eq htime hmicros⟩

/-- The moments of timestamps are near day 0. -/
theorem dated_of_ofTimestamp {t : Signed 64} {m : Moment} (h : ofTimestamp t = some m) :
    m.Dated := by
  have hmax := t.lt_max
  rw [Dated, (ofTimestamp_eq_some_iff.1 h).1, microsPerDay, microsPerSecond, lastDay, eraOffset]
  omega

/-- Moments of the same kind are ordered by day, then by time of day. -/
theorem compare_of_kind_eq {m n : Moment} (h : m.kind = n.kind) :
    m.compare n =
      (Ord.compare m.day.val n.day.val).then (Ord.compare m.micros.val n.micros.val) := by
  have hrank : Ord.compare (kindRank m.kind) (kindRank n.kind) = .eq := by
    rw [h]
    exact Nat.compare_eq_eq.2 rfl
  rw [compare, hrank, Ordering.then_eq]

/-- Dates are ordered as the days that they fall on. -/
theorem compare_date {m n : Moment} {date other : CivilDate} (hm : m.date = some date)
    (hn : n.date = some other) : date.compare other = Ord.compare m.day.val n.day.val := by
  obtain ⟨-, rfl⟩ := date_eq_some_iff.1 hm
  obtain ⟨-, rfl⟩ := date_eq_some_iff.1 hn
  exact CivilDate.compare_ofDayNumber m.day.val n.day.val

/-- Bare dates are ordered by year, month and day. -/
theorem compare_ofDate {date other : CivilDate} {m n : Moment} (hm : ofDate date = some (some m))
    (hn : ofDate other = some (some n)) : m.compare n = date.compare other := by
  obtain ⟨hkind, hdate, -⟩ := ofDate_components hm
  obtain ⟨hotherKind, hother, -⟩ := ofDate_components hn
  obtain ⟨-, -, -, hmicros, -⟩ := ofDate_eq_some_iff.1 hm
  obtain ⟨-, -, -, hotherMicros, -⟩ := ofDate_eq_some_iff.1 hn
  rw [compare_of_kind_eq (hkind.trans hotherKind.symm), hmicros, hotherMicros,
    compare_date hdate hother]
  exact Ordering.then_eq

/-- Among the years that are taken, a date makes a moment exactly if it is valid, with a time of
day exactly if that is valid too, and the moment has these components.  Conversely every day that
is a word, also counted from the first day of era 0, falls on a valid date that is counted as that
day; the day after it falls on the next date, and day 0 on the first of January of 1970.  No step
in either direction leaves a word of 32 bits.  So the order of bare dates is that of year, month
and day. -/
theorem calendar_exact {date : CivilDate} (hyear : date.year.natAbs ≤ maxYear) (time : ClockTime)
    {day : Int} (hday : InWord day) (hshifted : InWord (day + eraOffset)) :
    ((∃ m, ofDate date = some (some m)) ↔ date.Valid) ∧
      (¬date.Valid → ofDate date = some none) ∧
      (∀ m, ofDate date = some (some m) →
        m.kind = .date ∧ m.date = some date ∧ m.clock = .midnight) ∧
      ((∃ m, ofDateTime date time = some (some m)) ↔ date.Valid ∧ time.Valid) ∧
      (¬(date.Valid ∧ time.Valid) → ofDateTime date time = some none) ∧
      (∀ m, ofDateTime date time = some (some m) →
        m.kind = .dateTime ∧ m.date = some date ∧ m.clock = time) ∧
      (date.Valid → dayNumberInWord? date = some (dayNumber date) ∧
        ofDayNumberInWord? (dayNumber date) = some date) ∧
      (CivilDate.ofDayNumber day).Valid ∧
      (∃ word, (CivilDate.ofDayNumber day).dayNumber? = some (some word) ∧ word.val = day) ∧
      CivilDate.ofDayNumber (day + 1) = (CivilDate.ofDayNumber day).next ∧
      CivilDate.ofDayNumber 0 = ⟨1970, 1, 1⟩ ∧
      ofDayNumberInWord? day = some (CivilDate.ofDayNumber day) ∧
      (InWord (day + 1) → InWord (day + 1 + eraOffset) →
        ofDayNumberInWord? (day + 1) = some (CivilDate.ofDayNumber day).next) ∧
      dayNumberInWord? (CivilDate.ofDayNumber day) = some day ∧
      ∀ other m n, ofDate date = some (some m) → ofDate other = some (some n) →
        m.compare n = date.compare other := by
  obtain ⟨hfound, hback⟩ := CivilDate.dayNumber_ofDayNumber day
  have hnext := CivilDate.ofDayNumber_succ day
  refine ⟨⟨?_, ?_⟩, ofDate_of_not_valid, fun m => ofDate_components, ⟨?_, ?_⟩,
    ofDateTime_of_not_valid, fun m => ofDateTime_components, ?_, hfound,
    ⟨⟨day, hday.1, Int.lt_of_le_sub_one hday.2⟩,
      CivilDate.dayNumber?_eq_some_iff.2 ⟨hfound, hback.symm, hshifted⟩, rfl⟩,
    hnext, by decide, ofDayNumberInWord?_eq hday hshifted,
    fun hafter hlater => hnext ▸ ofDayNumberInWord?_eq hafter hlater,
    dayNumberInWord?_ofDayNumber hday hshifted, fun other m n => compare_ofDate⟩
  · rintro ⟨m, hm⟩
    exact (ofDate_eq_some_iff.1 hm).1
  · intro hvalid
    obtain ⟨hword, hshiftedWord⟩ := dayNumber_inWord hvalid hyear
    exact exists_ofDate hvalid hword hshiftedWord
  · rintro ⟨m, hm⟩
    obtain ⟨hvalid, htime, -⟩ := ofDateTime_eq_some_iff.1 hm
    exact ⟨hvalid, htime⟩
  · rintro ⟨hvalid, htime⟩
    obtain ⟨hword, hshiftedWord⟩ := dayNumber_inWord hvalid hyear
    exact exists_ofDateTime hvalid htime hword hshiftedWord
  · intro hvalid
    obtain ⟨hword, hshiftedWord⟩ := dayNumber_inWord hvalid hyear
    have hdate := ofDayNumberInWord?_eq hword hshiftedWord
    rw [CivilDate.ofDayNumber_dayNumber hvalid] at hdate
    exact ⟨dayNumberInWord?_eq hvalid hword hshiftedWord, hdate⟩

/-- The leap day of a century before year 0, just before midnight, and the first day of all. -/
theorem calendar_exact_century :
    let date : CivilDate := ⟨-400, 2, 29⟩
    let time : ClockTime := ⟨23, 59, 59, 999999⟩
    let day : Int := -2147483648
    date.year.natAbs ≤ maxYear ∧ InWord day ∧ InWord (day + eraOffset) ∧
      (∃ m, ofDateTime date time = some (some m) ∧ m.date = some date ∧ m.clock = time) ∧
      CivilDate.ofDayNumber day = ⟨-5877641, 6, 23⟩ ∧
      dayNumberInWord? ⟨-5877641, 6, 23⟩ = some day := by
  intro date time day
  have hyear : date.year.natAbs ≤ maxYear := by decide
  have hday : InWord day := ⟨by decide, by decide⟩
  have hshifted : InWord (day + eraOffset) := ⟨by decide, by decide⟩
  obtain ⟨-, -, -, hmade, -, hcomponents, -, -, -, -, -, -, -, hcounted, -⟩ :=
    calendar_exact hyear time hday hshifted
  obtain ⟨m, hm⟩ := hmade.2 ⟨by decide, by decide, by decide, by decide, by decide⟩
  have hfirst : CivilDate.ofDayNumber day = ⟨-5877641, 6, 23⟩ := by decide
  exact ⟨hyear, hday, hshifted, ⟨m, hm, (hcomponents m hm).2⟩, hfirst, hfirst ▸ hcounted⟩

/-- The year of a date stays in the word when its sign is changed. -/
theorem inWord_neg_year {m : Moment} {date : CivilDate} (h : m.date = some date) :
    InWord (-date.year) := by
  obtain ⟨hvalid, hday⟩ := date_valid h
  have hmin := m.day.inWord.1
  have hmax := m.day.inWord.2
  have hmonthDays := daysBeforeMonth_bounds (marchMonth_bounds ⟨hvalid.month_pos, hvalid.month_le⟩)
  have hdayOfMonth := hvalid.day_le
  have hmarch := marchYear_bounds date.year date.month
  rw [CivilDate.dayNumber_eq, marchDay, daysToMarch, eraOffset] at hday
  rw [InWord]
  omega

/-! ## Checked moments -/

/-- The moment comes from a checked constructor, and from a year in range where one is given. -/
inductive Checked : Moment → Prop
  | date {date : CivilDate} {m : Moment} (hyear : date.year.natAbs ≤ maxYear)
      (h : ofDate date = some (some m)) : Checked m
  | dateTime {date : CivilDate} {time : ClockTime} {m : Moment}
      (hyear : date.year.natAbs ≤ maxYear) (h : ofDateTime date time = some (some m)) : Checked m
  | timestamp {t : Signed 64} {m : Moment} (h : ofTimestamp t = some m) : Checked m

theorem Checked.dated {m : Moment} (h : m.Checked) : m.Dated := by
  cases h with
  | date _ h => exact (inWord_shifted_iff m.day).1 (ofDate_eq_some_iff.1 h).2.2.1
  | dateTime _ h => exact (inWord_shifted_iff m.day).1 (ofDateTime_eq_some_iff.1 h).2.2.2.1
  | timestamp h => exact dated_of_ofTimestamp h

end Moment

end ResultSet
