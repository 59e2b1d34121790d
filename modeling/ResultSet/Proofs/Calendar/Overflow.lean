import ResultSet.Proofs.Calendar.Gregorian

/-!
# The calendar in words

`dayNumberInWord?` and `ofDayNumberInWord?` give the answers of the integers, or none.

* Each part of the computation has a lemma that says where its steps stay in the word, and those of
  the count one that says that its answer is that of the integers.
* `dayNumberInWord?_eq_some_iff` and `ofDayNumberInWord?_eq_some_iff` put them together: there is an
  answer exactly if the day and the day counted from the first day of era 0 are words.  So the days
  behind `lastDay` are words without a date.
* `dayNumber_inWord` is a range of years for which there is an answer.
-/

namespace ResultSet

/-- The integer is a signed word of 32 bits. -/
def InWord (v : Int) : Prop := -2147483648 ≤ v ∧ v ≤ 2147483647

/-- The largest year, in either direction, that is taken. -/
def Moment.maxYear : Nat := 5800000

theorem Signed.inWord (v : Signed 32) : InWord v.val := ⟨v.min_le, Int.le_sub_one_of_lt v.lt_max⟩

namespace Calendar

theorem word?_eq_some_iff {v w : Int} : word? v = some w ↔ InWord v ∧ w = v := by
  rw [word?, Option.map_eq_some_iff]
  constructor
  · rintro ⟨word, hword, rfl⟩
    rw [← Signed.val_of_ofInt? hword]
    exact ⟨word.inWord, rfl⟩
  · rintro ⟨hv, rfl⟩
    exact ⟨⟨w, hv.1, Int.lt_of_le_sub_one hv.2⟩, Signed.ofInt?_eq_some_iff.2 rfl, rfl⟩

theorem word?_eq {v : Int} (h : InWord v) : word? v = some v := word?_eq_some_iff.2 ⟨h, rfl⟩

/-- A step that has an answer hands it on. -/
theorem bind_of_eq_some {α β : Type} {step : Option α} {a : α} (h : step = some a)
    (next : α → Option β) : (step >>= next) = next a := by
  rw [h]
  rfl

/-- A step that stays in the word is the step itself. -/
theorem word?_bind {α : Type} {v : Int} (h : InWord v) (next : Int → Option α) :
    (word? v >>= next) = next v :=
  bind_of_eq_some (word?_eq h) next

/-! ## Where every step stays in the word -/

theorem marchYear?_eq {year : Int} (month : Nat) (h : -2147483647 ≤ year ∧ year ≤ 2147483647) :
    marchYear? year month = some (marchYear year month) := by
  unfold marchYear? marchYear
  split
  · rw [word?_eq ⟨by omega, by omega⟩]
  · rfl

theorem marchMonth?_eq {month : Nat} (h : month ≤ 12) :
    marchMonth? month = some (marchMonth month) := by
  unfold marchMonth? marchMonth
  split
  · rw [word?_eq ⟨by omega, by omega⟩]
  · rw [word?_eq ⟨by omega, by omega⟩]

theorem eraOfYear?_eq {year : Int} (h : -2147483249 ≤ year) :
    eraOfYear? year = some (eraOfYear year) := by
  unfold eraOfYear? eraOfYear
  split
  · rfl
  · rw [word?_bind ⟨by omega, by omega⟩]
    rfl

theorem daysBeforeMonth?_eq {month : Int} (h : -1000000 ≤ month ∧ month ≤ 1000000) :
    daysBeforeMonth? month = some (daysBeforeMonth month) := by
  rw [daysBeforeMonth?, word?_bind ⟨by omega, by omega⟩, word?_bind ⟨by omega, by omega⟩]
  rfl

theorem daysBeforeYear?_eq {year : Int} (h : 0 ≤ year ∧ year < 400) :
    daysBeforeYear? year = some (daysBeforeYear year) := by
  simp only [daysBeforeYear?, daysBeforeYear, Int.tdiv_eq_ediv_of_nonneg h.1]
  rw [word?_bind ⟨by omega, by omega⟩, word?_bind ⟨by omega, by omega⟩,
    word?_eq ⟨by omega, by omega⟩]

theorem eraOfDay?_eq {day : Int} (h : -2147483648 + 146096 ≤ day) :
    eraOfDay? day = some (eraOfDay day) := by
  unfold eraOfDay? eraOfDay
  split
  · rfl
  · rw [daysPerEra, word?_bind ⟨by omega, by omega⟩]
    rfl

theorem yearOfEraDay?_eq {day : Int} (h : 0 ≤ day ∧ day < 146097) :
    yearOfEraDay? day = some (yearOfEraDay day) := by
  simp only [yearOfEraDay?, yearOfEraDay, Int.tdiv_eq_ediv_of_nonneg h.1]
  rw [word?_bind ⟨by omega, by omega⟩, word?_bind ⟨by omega, by omega⟩,
    word?_bind ⟨by omega, by omega⟩]
  rfl

theorem monthOfYearDay?_eq {day : Int} (h : -1000000 ≤ day ∧ day ≤ 1000000) :
    monthOfYearDay? day = some (monthOfYearDay day) := by
  rw [monthOfYearDay?, word?_bind ⟨by omega, by omega⟩, word?_bind ⟨by omega, by omega⟩]
  rfl

theorem civilMonth?_eq {month : Int} (h : -1000000 ≤ month ∧ month ≤ 1000000) :
    civilMonth? month = some (civilMonth month) := by
  unfold civilMonth? civilMonth
  split
  · rw [word?_eq ⟨by omega, by omega⟩]
  · rw [word?_eq ⟨by omega, by omega⟩]

/-- The day of a date is counted in the word, when it is in the word itself and counted from the
first day of era 0. -/
theorem dayNumberInWord?_eq {date : CivilDate} (h : date.Valid) (hday : InWord (dayNumber date))
    (hshifted : InWord (dayNumber date + eraOffset)) :
    dayNumberInWord? date = some (dayNumber date) := by
  have hdayOfMonth := h.day_le
  have hmonthBounds := marchMonth_bounds ⟨h.month_pos, h.month_le⟩
  have hmonthDays := daysBeforeMonth_bounds hmonthBounds
  obtain ⟨hmin, -⟩ := hday
  obtain ⟨-, hmax⟩ := hshifted
  have hyear := marchYear_bounds date.year date.month
  rw [CivilDate.dayNumber_eq, marchDay, eraOffset] at hmin hmax
  have hera := daysToMarch_eq (marchYear date.year date.month)
  have hofEra : 0 ≤ marchYear date.year date.month -
      marchYear date.year date.month / 400 * 400 ∧
      marchYear date.year date.month - marchYear date.year date.month / 400 * 400 < 400 := by omega
  have hyearDays := daysBeforeYear_bounds hofEra
  rw [dayNumberInWord?, dayNumber, bind_of_eq_some (marchYear?_eq _ (by omega)),
    bind_of_eq_some (marchMonth?_eq h.month_le)]
  generalize marchYear date.year date.month = year at *
  generalize marchMonth date.month = month at *
  rw [bind_of_eq_some (eraOfYear?_eq (by omega)), eraOfYear_eq, word?_bind ⟨by omega, by omega⟩,
    word?_bind ⟨by omega, by omega⟩, bind_of_eq_some (daysBeforeMonth?_eq (by omega)),
    word?_bind ⟨by omega, by omega⟩, word?_bind ⟨by omega, by omega⟩,
    bind_of_eq_some (daysBeforeYear?_eq hofEra), daysPerEra, eraOffset,
    word?_bind ⟨by omega, by omega⟩, word?_bind ⟨by omega, by omega⟩,
    word?_bind ⟨by omega, by omega⟩, word?_eq ⟨by omega, by omega⟩]

/-- The date of a day is found in the word, when the day counted from the first day of era 0 is
in the word. -/
theorem ofDayNumberInWord?_eq {day : Int} (hday : InWord day)
    (hshifted : InWord (day + eraOffset)) :
    ofDayNumberInWord? day = some (CivilDate.ofDayNumber day) := by
  have hmin : -2147483648 + 146096 ≤ day + eraOffset := by
    have h := hday.1
    rw [eraOffset]
    omega
  rw [ofDayNumberInWord?, CivilDate.ofDayNumber, word?_bind hshifted,
    bind_of_eq_some (eraOfDay?_eq hmin)]
  dsimp only
  rw [eraOfDay_eq]
  obtain ⟨-, hmax⟩ := hshifted
  generalize day + eraOffset = shifted at hmin hmax ⊢
  have hofEra : 0 ≤ shifted - shifted / 146097 * 146097 ∧
      shifted - shifted / 146097 * 146097 < 146097 := by omega
  rw [daysPerEra, word?_bind ⟨by omega, by omega⟩, word?_bind ⟨by omega, by omega⟩,
    bind_of_eq_some (yearOfEraDay?_eq hofEra)]
  have hyear := yearOfEraDay_bounds hofEra
  generalize yearOfEraDay (shifted - shifted / 146097 * 146097) = yearOfEra at hyear ⊢
  have hyearDays := daysBeforeYear_bounds hyear
  rw [word?_bind ⟨by omega, by omega⟩, word?_bind ⟨by omega, by omega⟩,
    bind_of_eq_some (daysBeforeYear?_eq hyear)]
  generalize daysBeforeYear yearOfEra = yearDays at hyearDays ⊢
  rw [word?_bind ⟨by omega, by omega⟩]
  have hmonth : (monthOfYearDay (shifted - shifted / 146097 * 146097 - yearDays)).natAbs ≤
      (5 * (shifted - shifted / 146097 * 146097 - yearDays) + 2).natAbs :=
    Int.natAbs_tdiv_le_natAbs _ _
  rw [bind_of_eq_some (monthOfYearDay?_eq (by omega))]
  generalize monthOfYearDay (shifted - shifted / 146097 * 146097 - yearDays) = month at hmonth ⊢
  have hmonthDays : (daysBeforeMonth month).natAbs ≤ (153 * month + 2).natAbs :=
    Int.natAbs_tdiv_le_natAbs _ _
  rw [bind_of_eq_some (daysBeforeMonth?_eq (by omega))]
  generalize daysBeforeMonth month = monthDays at hmonthDays ⊢
  rw [word?_bind ⟨by omega, by omega⟩, word?_bind ⟨by omega, by omega⟩,
    bind_of_eq_some (civilMonth?_eq (by omega))]
  split
  · rw [word?_bind ⟨by omega, by omega⟩]
    rfl
  · rfl

/-! ## What an answer says -/

theorem marchYear?_sound {year word : Int} {month : Nat} (h : marchYear? year month = some word) :
    word = marchYear year month := by
  unfold marchYear? at h
  unfold marchYear
  split at h
  · rw [if_pos (by assumption)]
    exact (word?_eq_some_iff.1 h).2
  · rw [if_neg (by assumption)]
    exact (Option.some.inj h).symm

theorem marchMonth?_sound {month : Nat} {word : Int} (h : marchMonth? month = some word) :
    word = marchMonth month := by
  unfold marchMonth? at h
  unfold marchMonth
  split at h
  · rw [if_pos (by assumption)]
    exact (word?_eq_some_iff.1 h).2
  · rw [if_neg (by assumption)]
    exact (word?_eq_some_iff.1 h).2

theorem eraOfYear?_sound {year word : Int} (h : eraOfYear? year = some word) :
    word = eraOfYear year := by
  unfold eraOfYear? at h
  unfold eraOfYear
  split at h
  · rw [if_pos (by assumption)]
    exact (Option.some.inj h).symm
  · rw [if_neg (by assumption)]
    obtain ⟨moved, hmoved, hword⟩ := Option.bind_eq_some_iff.1 h
    rw [← (word?_eq_some_iff.1 hmoved).2]
    exact (Option.some.inj hword).symm

theorem daysBeforeMonth?_sound {month word : Int} (h : daysBeforeMonth? month = some word) :
    word = daysBeforeMonth month := by
  simp only [daysBeforeMonth?, Option.bind_eq_bind, Option.bind_eq_some_iff,
    word?_eq_some_iff] at h
  obtain ⟨_, ⟨-, rfl⟩, _, ⟨-, rfl⟩, hword⟩ := h
  exact (Option.some.inj hword).symm

theorem daysBeforeYear?_sound {year word : Int} (h : daysBeforeYear? year = some word) :
    word = daysBeforeYear year := by
  simp only [daysBeforeYear?, Option.bind_eq_bind, Option.bind_eq_some_iff,
    word?_eq_some_iff] at h
  obtain ⟨_, ⟨-, rfl⟩, _, ⟨-, rfl⟩, -, hword⟩ := h
  exact hword

/-- A day that was counted is the one of the integers, and its last two steps stayed in the word. -/
theorem dayNumberInWord?_sound {date : CivilDate} {day : Int}
    (h : dayNumberInWord? date = some day) :
    day = dayNumber date ∧ InWord day ∧ InWord (day + eraOffset) := by
  simp only [dayNumberInWord?, Option.bind_eq_bind, Option.bind_eq_some_iff,
    word?_eq_some_iff] at h
  obtain ⟨year, hyear, month, hmonth, era, hera, _, ⟨-, rfl⟩, _, ⟨-, rfl⟩, monthDays, hmonthDays,
    _, ⟨-, rfl⟩, _, ⟨-, rfl⟩, yearDays, hyearDays, _, ⟨-, rfl⟩, _, ⟨-, rfl⟩, _, ⟨hshifted, rfl⟩,
    hday, rfl⟩ := h
  obtain rfl := marchYear?_sound hyear
  obtain rfl := marchMonth?_sound hmonth
  obtain rfl := eraOfYear?_sound hera
  obtain rfl := daysBeforeMonth?_sound hmonthDays
  obtain rfl := daysBeforeYear?_sound hyearDays
  exact ⟨rfl, hday, by rwa [Int.sub_add_cancel]⟩

/-! ## The two computations -/

/-- The day of a date has an answer exactly if it is a word, also counted from the first day of
era 0. -/
theorem dayNumberInWord?_eq_some_iff {date : CivilDate} (h : date.Valid) {day : Int} :
    dayNumberInWord? date = some day ↔
      day = dayNumber date ∧ InWord day ∧ InWord (day + eraOffset) := by
  refine ⟨dayNumberInWord?_sound, ?_⟩
  rintro ⟨rfl, hday, hshifted⟩
  exact dayNumberInWord?_eq h hday hshifted

/-- The date of a day has an answer exactly if the day is a word when it is counted from the first
day of era 0. -/
theorem ofDayNumberInWord?_eq_some_iff {day : Int} (hday : InWord day) {date : CivilDate} :
    ofDayNumberInWord? day = some date ↔
      InWord (day + eraOffset) ∧ date = CivilDate.ofDayNumber day := by
  constructor
  · intro h
    have hshifted : InWord (day + eraOffset) := by
      obtain ⟨shifted, hshifted, -⟩ := Option.bind_eq_some_iff.1 h
      exact (word?_eq_some_iff.1 hshifted).1
    rw [ofDayNumberInWord?_eq hday hshifted] at h
    exact ⟨hshifted, (Option.some.inj h).symm⟩
  · rintro ⟨hshifted, rfl⟩
    exact ofDayNumberInWord?_eq hday hshifted

/-- The date that was found is counted back to its day. -/
theorem dayNumberInWord?_ofDayNumber {day : Int} (hday : InWord day)
    (hshifted : InWord (day + eraOffset)) :
    dayNumberInWord? (CivilDate.ofDayNumber day) = some day := by
  obtain ⟨hvalid, hback⟩ := CivilDate.dayNumber_ofDayNumber day
  have hcount := dayNumberInWord?_eq hvalid
  rw [hback] at hcount
  exact hcount hday hshifted

/-- The last day that has a date.  Counted from the first day of era 0 it is the largest word. -/
def lastDay : Int := 2147483647 - eraOffset

theorem inWord_shifted_iff (day : Signed 32) :
    InWord (day.val + eraOffset) ↔ day.val ≤ lastDay := by
  have hmin := day.inWord.1
  rw [InWord, lastDay, eraOffset]
  omega

/-- The years that are taken have days in the word, counted from either beginning. -/
theorem dayNumber_inWord {date : CivilDate} (h : date.Valid)
    (hyear : date.year.natAbs ≤ Moment.maxYear) :
    InWord (dayNumber date) ∧ InWord (dayNumber date + eraOffset) := by
  have hdayOfMonth := h.day_le
  have hday := h.day_pos
  have hmonthDays := daysBeforeMonth_bounds (marchMonth_bounds ⟨h.month_pos, h.month_le⟩)
  have hmarch := marchYear_bounds date.year date.month
  rw [Moment.maxYear] at hyear
  rw [CivilDate.dayNumber_eq, marchDay, daysToMarch, eraOffset, InWord, InWord]
  omega

end Calendar

namespace CivilDate

open Calendar

/-- A date that exists has a number as long as its steps stay in the word. -/
theorem dayNumber?_eq_some_iff {date : CivilDate} {day : Signed 32} :
    date.dayNumber? = some (some day) ↔
      date.Valid ∧ day.val = dayNumber date ∧ InWord (day.val + eraOffset) := by
  unfold dayNumber?
  split
  · rename_i hexists
    have hvalid := date.exists?_iff.1 hexists
    rw [Option.map_eq_some_iff]
    constructor
    · rintro ⟨word, hword, hday⟩
      cases hday
      obtain ⟨counted, hcounted, hfits⟩ := Option.bind_eq_some_iff.1 hword
      rw [Signed.ofInt?_eq_some_iff] at hfits
      rw [dayNumberInWord?_eq_some_iff hvalid, ← hfits] at hcounted
      exact ⟨hvalid, hcounted.1, hcounted.2.2⟩
    · rintro ⟨-, hday, hshifted⟩
      have hcounted := (dayNumberInWord?_eq_some_iff hvalid).2 ⟨hday, day.inWord, hshifted⟩
      exact ⟨day, by rw [hcounted, Option.bind_some, Signed.ofInt?_val], rfl⟩
  · rename_i hmissing
    simp [mt date.exists?_iff.2 hmissing]

theorem dayNumber?_of_not_valid {date : CivilDate} (h : ¬date.Valid) :
    date.dayNumber? = some none := by
  rw [dayNumber?, if_neg (mt date.exists?_iff.1 h)]

end CivilDate

end ResultSet
