import ResultSet.Proofs.Calendar.Origins
import ResultSet.Proofs.Text.Order

/-!
# The text of a moment

`MomentParts.read?` reads a text by its layout: a year of at least four digits with an optional
minus sign, two digits each for month, day, hour, minute and second, and six digits for the
microseconds if there are any.  Each part of the layout has a lemma that reads it back.

A moment within its day is determined by its kind, its date and its time of day, and these are what
its text is read as (`Moment.read?_textOn`).  The text is ASCII and short, so its bytes are never
cut off (`Moment.bytes_eq`).

Fields of the same width are compared as bytes one after the other.  So the bytes of two texts of
the same kind are ordered as the moments, as long as the years have no sign and four digits
(`Moment.compareBytes_textOn`).
-/

namespace ResultSet

open Calendar

/-! ## The layout -/

section Fits

variable {date : CivilDate} {time : ClockTime}

theorem CivilDate.Valid.month_fits (h : date.Valid) : date.month < 10 ^ (2 : Nat) :=
  Nat.lt_of_le_of_lt h.month_le (by decide)

theorem CivilDate.Valid.day_fits (h : date.Valid) : date.day < 10 ^ (2 : Nat) :=
  Nat.lt_of_le_of_lt h.day_le (by decide)

theorem ClockTime.Valid.hour_fits (h : time.Valid) : time.hour < 10 ^ (2 : Nat) :=
  Nat.lt_trans h.hour_lt (by decide)

theorem ClockTime.Valid.minute_fits (h : time.Valid) : time.minute < 10 ^ (2 : Nat) :=
  Nat.lt_trans h.minute_lt (by decide)

theorem ClockTime.Valid.second_fits (h : time.Valid) : time.second < 10 ^ (2 : Nat) :=
  Nat.lt_trans h.second_lt (by decide)

end Fits

namespace Moment

theorem dateText_append (date : CivilDate) (rest : Text) :
    dateText date ++ rest = (if date.year < 0 then ['-'] else []) ++
      (Digits.padded 4 date.year.natAbs ++ '-' :: (Digits.padded 2 date.month ++
        '-' :: (Digits.padded 2 date.day ++ rest))) := by
  simp [dateText]

/-- The microseconds behind a point, nothing without them. -/
def fractionText (micros : Nat) : Text := if micros = 0 then [] else '.' :: Digits.padded 6 micros

theorem clockText_eq (time : ClockTime) :
    clockText time = Digits.padded 2 time.hour ++ ':' :: (Digits.padded 2 time.minute ++
      ':' :: (Digits.padded 2 time.second ++ fractionText time.micros)) := by
  simp [clockText, fractionText]

end Moment

/-! ## Fields -/

/-- Reads exactly `width` digits. -/
def readField? (width : Nat) (input : Text) : Option (Nat × Text) :=
  let digits := input.take width
  if digits.length = width ∧ Digits.allDigits digits then
    some (Digits.value digits, input.drop width)
  else none

/-- Reads a mark and exactly `width` digits behind it. -/
def readMarked? (mark : Char) (width : Nat) : Text → Option (Nat × Text)
  | [] => none
  | c :: rest => if c = mark then readField? width rest else none

theorem readField?_padded {width n : Nat} (hwidth : 0 < width) (h : n < 10 ^ width) (rest : Text) :
    readField? width (Digits.padded width n ++ rest) = some (n, rest) := by
  have hlength := Digits.length_padded hwidth h
  simp only [readField?, List.take_left' hlength, List.drop_left' hlength, hlength,
    Digits.allDigits_padded, Digits.value_padded, and_self, if_true]

theorem readMarked?_padded (mark : Char) {width n : Nat} (hwidth : 0 < width) (h : n < 10 ^ width)
    (rest : Text) :
    readMarked? mark width (mark :: (Digits.padded width n ++ rest)) = some (n, rest) := by
  rw [readMarked?, if_pos rfl, readField?_padded hwidth h]

/-! ## Dates and times -/

namespace CivilDate

/-- Reads the digits of a year, as many as there are and at least four. -/
def readYear? (input : Text) : Option (Nat × Text) :=
  let digits := input.takeWhile Char.isDigit
  if 4 ≤ digits.length then some (Digits.value digits, input.dropWhile Char.isDigit) else none

/-- Reads a year with an optional minus sign. -/
def readSignedYear? : Text → Option (Int × Text)
  | '-' :: rest => (readYear? rest).map fun read => (-(read.1 : Int), read.2)
  | input => (readYear? input).map fun read => ((read.1 : Int), read.2)

/-- Reads a date, `[-]YYYY-MM-DD`. -/
def read? (input : Text) : Option (CivilDate × Text) := do
  let (year, input) ← readSignedYear? input
  let (month, input) ← readMarked? '-' 2 input
  let (day, input) ← readMarked? '-' 2 input
  return (⟨year, month, day⟩, input)

theorem readYear?_padded (n : Nat) {mark : Char} (hmark : mark.isDigit = false) (rest : Text) :
    readYear? (Digits.padded 4 n ++ mark :: rest) = some (n, mark :: rest) := by
  have hdigits : ∀ c ∈ Digits.padded 4 n, c.isDigit = true :=
    List.all_eq_true.1 (Digits.allDigits_padded 4 n)
  have hlength : 4 ≤ (Digits.padded 4 n).length := by
    rw [Digits.length_padded_eq_max]
    exact Nat.le_max_left ..
  simp only [readYear?, List.takeWhile_append_of_pos hdigits, List.dropWhile_append_of_pos hdigits,
    List.takeWhile_cons, List.dropWhile_cons, hmark, Bool.false_eq_true, if_false, List.append_nil,
    hlength, if_true, Digits.value_padded]

theorem readSignedYear?_padded (year : Int) {mark : Char} (hmark : mark.isDigit = false)
    (rest : Text) :
    readSignedYear? ((if year < 0 then ['-'] else []) ++
      (Digits.padded 4 year.natAbs ++ mark :: rest)) = some (year, mark :: rest) := by
  have hread := readYear?_padded year.natAbs hmark rest
  split
  · rename_i hneg
    rw [List.singleton_append, readSignedYear?, hread, Option.map_some, Option.some.injEq,
      Prod.mk.injEq]
    exact ⟨by omega, rfl⟩
  · rename_i hnonneg
    rw [List.nil_append]
    unfold readSignedYear?
    split
    · -- a digit is no minus sign
      rename_i heq
      rw [heq] at hread
      simp [readYear?] at hread
    · rw [hread, Option.map_some, Option.some.injEq, Prod.mk.injEq]
      exact ⟨by omega, rfl⟩

theorem read?_dateText {date : CivilDate} (h : date.Valid) (rest : Text) :
    read? (Moment.dateText date ++ rest) = some (date, rest) := by
  rw [Moment.dateText_append, read?, readSignedYear?_padded date.year (by decide)]
  simp only [Option.bind_eq_bind, Option.bind_some, readMarked?_padded '-' Nat.two_pos h.month_fits,
    readMarked?_padded '-' Nat.two_pos h.day_fits, Option.pure_def]

/-- The year is written with four digits and no sign. -/
def FourDigits (date : CivilDate) : Prop := 0 ≤ date.year ∧ date.year ≤ 9999

end CivilDate

namespace ClockTime

/-- Reads microseconds up to the end of the text, none if nothing is left. -/
def readFraction? (input : Text) : Option (Nat × Text) :=
  if input = [] then some (0, []) else readMarked? '.' 6 input

/-- Reads a time of day behind a space, ` HH:MM:SS[.ffffff]`. -/
def read? (input : Text) : Option (ClockTime × Text) := do
  let (hour, input) ← readMarked? ' ' 2 input
  let (minute, input) ← readMarked? ':' 2 input
  let (second, input) ← readMarked? ':' 2 input
  let (micros, input) ← readFraction? input
  return (⟨hour, minute, second, micros⟩, input)

theorem readFraction?_fractionText {micros : Nat} (h : micros < 10 ^ (6 : Nat)) :
    readFraction? (Moment.fractionText micros) = some (micros, []) := by
  have hread := readMarked?_padded '.' (by decide) h []
  rw [List.append_nil] at hread
  rw [Moment.fractionText, readFraction?]
  split
  · rename_i hzero
    rw [if_pos rfl, hzero]
  · rw [if_neg (List.cons_ne_nil _ _), hread]

theorem read?_clockText {time : ClockTime} (h : time.Valid) :
    read? (' ' :: Moment.clockText time) = some (time, []) := by
  rw [Moment.clockText_eq, read?]
  simp only [Option.bind_eq_bind, Option.bind_some, readMarked?_padded ' ' Nat.two_pos h.hour_fits,
    readMarked?_padded ':' Nat.two_pos h.minute_fits,
    readMarked?_padded ':' Nat.two_pos h.second_fits, readFraction?_fractionText h.micros_lt,
    Option.pure_def]

end ClockTime

/-! ## Moments -/

/-- What the text of a moment says: its kind, and the seven components. -/
structure MomentParts where
  kind : MomentKind
  date : CivilDate
  clock : ClockTime
deriving DecidableEq

/-- Reads a date, or a date and a time of day, up to the end of the text.  A bare date is at
midnight. -/
def MomentParts.read? (input : Text) : Option MomentParts := do
  let (date, input) ← CivilDate.read? input
  if input = [] then return ⟨.date, date, .midnight⟩
  let (clock, input) ← ClockTime.read? input
  if input = [] then return ⟨.dateTime, date, clock⟩ else none

namespace Moment

variable {m n : Moment} {date other : CivilDate}

theorem WithinDay.clock_midnight (h : m.WithinDay) (hkind : m.kind = .date) :
    m.clock = .midnight :=
  clock_eq ⟨by decide, by decide, by decide, by decide⟩ (h.bare hkind)

/-- The text is read as the kind and the components of the moment. -/
theorem read?_textOn (h : m.WithinDay) (hvalid : date.Valid) :
    MomentParts.read? (m.textOn date) = some ⟨m.kind, date, m.clock⟩ := by
  have hdate := CivilDate.read?_dateText hvalid
  rw [textOn, MomentParts.read?]
  cases hkind : m.kind with
  | date =>
    have hbare := hdate []
    rw [List.append_nil] at hbare
    simp [hbare, h.clock_midnight hkind]
  | dateTime =>
    have hclock := ClockTime.read?_clockText (clock_valid h.micros_lt).1
    simp [hdate, hclock]

/-- A moment within its day is determined by its kind and its components. -/
theorem WithinDay.eq_of_parts_eq (hm : m.WithinDay) (hn : n.WithinDay) (hmDated : m.Dated)
    (hnDated : n.Dated) (hkind : m.kind = n.kind) (hdate : m.date = n.date)
    (hclock : m.clock = n.clock) : m = n := by
  have hrebuilt : m.rebuilt = n.rebuilt := by rw [rebuilt, rebuilt, hkind, hdate, hclock]
  rw [hm.rebuilt_eq hmDated, hn.rebuilt_eq hnDated] at hrebuilt
  exact Option.some.inj (Option.some.inj hrebuilt)

/-! ## Bytes -/

theorem padded_isAscii (width n : Nat) : ∀ c ∈ Digits.padded width n, IsAscii c := fun c h =>
  isAscii_of_isDigit (List.all_eq_true.1 (Digits.allDigits_padded width n) c h)

theorem dateText_isAscii (date : CivilDate) : ∀ c ∈ dateText date, IsAscii c := by
  have hminus : IsAscii '-' := by decide
  have hsign : ∀ c ∈ (if date.year < 0 then ['-'] else []), IsAscii c := by
    split
    · exact List.forall_mem_singleton.2 hminus
    · simp
  rw [← List.append_nil (dateText date), dateText_append]
  simp only [List.forall_mem_append, List.forall_mem_cons]
  exact ⟨hsign, padded_isAscii _ _, hminus, padded_isAscii _ _, hminus, padded_isAscii _ _,
    List.forall_mem_nil _⟩

theorem clockText_isAscii (time : ClockTime) : ∀ c ∈ clockText time, IsAscii c := by
  have hcolon : IsAscii ':' := by decide
  have hfraction : ∀ c ∈ fractionText time.micros, IsAscii c := by
    unfold fractionText
    split
    · simp
    · exact List.forall_mem_cons.2 ⟨by decide, padded_isAscii _ _⟩
  rw [clockText_eq]
  simp only [List.forall_mem_append, List.forall_mem_cons]
  exact ⟨padded_isAscii _ _, hcolon, padded_isAscii _ _, hcolon, padded_isAscii _ _, hfraction⟩

theorem textOn_isAscii (m : Moment) (date : CivilDate) : ∀ c ∈ m.textOn date, IsAscii c := by
  unfold textOn
  split
  · exact dateText_isAscii date
  · simp only [List.forall_mem_append, List.forall_mem_singleton]
    exact ⟨⟨dateText_isAscii date, by decide⟩, clockText_isAscii m.clock⟩

theorem length_dateText_le {date : CivilDate} (h : date.Valid)
    (hyear : date.year.natAbs ≤ maxYear) : (dateText date).length ≤ 14 := by
  have hsign : (if date.year < 0 then ['-'] else []).length ≤ 1 := by split <;> decide
  have hdigits : (Digits.padded 4 date.year.natAbs).length ≤ 7 := by
    have hfits : date.year.natAbs < 10 ^ (7 : Nat) := Nat.lt_of_le_of_lt hyear (by decide)
    rw [Digits.length_padded_eq_max]
    exact Nat.max_le.2 ⟨by decide, Digits.length_ofNat_le (by decide) hfits⟩
  simp only [dateText, List.length_append, List.length_singleton,
    Digits.length_padded Nat.two_pos h.month_fits, Digits.length_padded Nat.two_pos h.day_fits]
  omega

theorem length_clockText_le {time : ClockTime} (h : time.Valid) : (clockText time).length ≤ 15 := by
  have hfraction : (fractionText time.micros).length ≤ 7 := by
    unfold fractionText
    split
    · exact Nat.zero_le _
    · exact Nat.succ_le_succ (Nat.le_of_eq (Digits.length_padded (by decide) h.micros_lt))
  simp only [clockText_eq, List.length_append, List.length_cons,
    Digits.length_padded Nat.two_pos h.hour_fits, Digits.length_padded Nat.two_pos h.minute_fits,
    Digits.length_padded Nat.two_pos h.second_fits]
  omega

/-- There is room for the whole text. -/
theorem bytes_eq (h : m.WithinDay) (hdate : m.date = some date)
    (hyear : date.year.natAbs ≤ maxYear) : m.bytes = some (m.textOn date).utf8 := by
  have hdateText := length_dateText_le (date_valid hdate).1 hyear
  have hclock := length_clockText_le (clock_valid h.micros_lt).1
  have hlength : (m.textOn date).length ≤ textCapacity := by
    rw [textCapacity, textOn]
    split
    · omega
    · simp only [List.length_append, List.length_singleton]
      omega
  rw [bytes, text, hdate, Option.map_some, Option.map_some, List.take_of_length_le]
  rwa [Text.length_utf8_of_ascii (m.textOn_isAscii date)]

/-! ## The order of the bytes -/

theorem compareBytes_mark (c : Char) (rest rest' : Text) :
    compareBytes (Text.utf8 (c :: rest)) (Text.utf8 (c :: rest')) =
      compareBytes rest.utf8 rest'.utf8 := by
  rw [Text.utf8_cons, Text.utf8_cons, compareBytes_append_left]

/-- Fields of the same width decide by their numbers, and then what stands behind them. -/
theorem compareBytes_padded {width a b : Nat} (hwidth : 0 < width) (ha : a < 10 ^ width)
    (hb : b < 10 ^ width) (rest rest' : Text) :
    compareBytes (Text.utf8 (Digits.padded width a ++ rest))
        (Text.utf8 (Digits.padded width b ++ rest')) =
      (Ord.compare a b).then (compareBytes rest.utf8 rest'.utf8) := by
  have hlength : (Digits.padded width a).length = (Digits.padded width b).length := by
    rw [Digits.length_padded hwidth ha, Digits.length_padded hwidth hb]
  have hbytes : (Text.utf8 (Digits.padded width a)).length =
      (Text.utf8 (Digits.padded width b)).length := by
    rw [Text.length_utf8_of_ascii (padded_isAscii width a),
      Text.length_utf8_of_ascii (padded_isAscii width b), hlength]
  rw [Text.utf8_append, Text.utf8_append, compareBytes_append hbytes,
    compareBytes_digits (Digits.allDigits_padded width a) (Digits.allDigits_padded width b) hlength,
    Digits.value_padded, Digits.value_padded]

theorem compareBytes_dateText {date other : CivilDate} (h : date.Valid) (hother : other.Valid)
    (hyear : date.FourDigits) (hyear' : other.FourDigits) (rest rest' : Text) :
    compareBytes (Text.utf8 (dateText date ++ rest)) (Text.utf8 (dateText other ++ rest')) =
      (date.compare other).then (compareBytes rest.utf8 rest'.utf8) := by
  have hfits : date.year.natAbs < 10 ^ (4 : Nat) := by
    obtain ⟨hfirst, hlast⟩ := hyear
    omega
  have hfits' : other.year.natAbs < 10 ^ (4 : Nat) := by
    obtain ⟨hfirst, hlast⟩ := hyear'
    omega
  rw [dateText_append, dateText_append, if_neg (Int.not_lt.2 hyear.1),
    if_neg (Int.not_lt.2 hyear'.1), List.nil_append, List.nil_append,
    compareBytes_padded (by decide) hfits hfits', compareBytes_mark,
    compareBytes_padded Nat.two_pos h.month_fits hother.month_fits, compareBytes_mark,
    compareBytes_padded Nat.two_pos h.day_fits hother.day_fits,
    compare_natAbs hyear.1 hyear'.1]
  simp only [CivilDate.compare, compareLex, compareOn, Ordering.then_assoc]

/-- A text without a fraction is a start of one with a fraction, and comes before it. -/
theorem compareBytes_fractionText {a b : Nat} (ha : a < 10 ^ (6 : Nat)) (hb : b < 10 ^ (6 : Nat)) :
    compareBytes (fractionText a).utf8 (fractionText b).utf8 = Ord.compare a b := by
  have hfields := compareBytes_padded (by decide) ha hb [] []
  unfold fractionText
  split
  · rename_i hazero
    split
    · rename_i hbzero
      rw [hazero, hbzero]
      rfl
    · rename_i hbpos
      rw [hazero, Nat.compare_eq_lt.2 (Nat.pos_of_ne_zero hbpos)]
      rfl
  · rename_i hapos
    split
    · rename_i hbzero
      rw [hbzero, Nat.compare_eq_gt.2 (Nat.pos_of_ne_zero hapos)]
      rfl
    · rw [compareBytes_mark]
      simpa using hfields

/-- Times of day are ordered like the microseconds since midnight. -/
theorem compareBytes_clockText {time other : ClockTime} (h : time.Valid) (hother : other.Valid) :
    compareBytes (clockText time).utf8 (clockText other).utf8 =
      Ord.compare time.sinceMidnight other.sinceMidnight := by
  have hmixed (time : ClockTime) : time.sinceMidnight =
      ((time.hour * 60 + time.minute) * 60 + time.second) * 1000000 + time.micros := by
    rw [ClockTime.sinceMidnight]
    omega
  rw [clockText_eq, clockText_eq, compareBytes_padded Nat.two_pos h.hour_fits hother.hour_fits,
    compareBytes_mark, compareBytes_padded Nat.two_pos h.minute_fits hother.minute_fits,
    compareBytes_mark, compareBytes_padded Nat.two_pos h.second_fits hother.second_fits,
    compareBytes_fractionText h.micros_lt hother.micros_lt, hmixed, hmixed,
    compare_mixed h.micros_lt hother.micros_lt, compare_mixed h.second_lt hother.second_lt,
    compare_mixed h.minute_lt hother.minute_lt]
  simp only [Ordering.then_assoc]

/-- Texts of the same kind are ordered like the moments. -/
theorem compareBytes_textOn (hm : m.WithinDay) (hn : n.WithinDay) (hmDate : m.date = some date)
    (hnDate : n.date = some other) (hkind : m.kind = n.kind) (hmYear : date.FourDigits)
    (hnYear : other.FourDigits) :
    compareBytes (m.textOn date).utf8 (n.textOn other).utf8 = m.compare n := by
  have hdates := compareBytes_dateText (date_valid hmDate).1 (date_valid hnDate).1 hmYear hnYear
  rw [compare_of_kind_eq hkind, ← compare_date hmDate hnDate, textOn, textOn, ← hkind]
  cases hm' : m.kind with
  | date =>
    have hbare := hdates [] []
    rw [List.append_nil, List.append_nil] at hbare
    rw [hbare, hm.bare hm', hn.bare (hkind ▸ hm')]
    rfl
  | dateTime =>
    obtain ⟨hmClock, hmSince⟩ := clock_valid hm.micros_lt
    obtain ⟨hnClock, hnSince⟩ := clock_valid hn.micros_lt
    simp only [List.append_assoc, List.singleton_append]
    rw [hdates, compareBytes_mark, compareBytes_clockText hmClock hnClock, hmSince, hnSince]

/-! ## The text as a whole -/

/-- The moment was made by a constructor that checks what it is given, and its year is in range. -/
structure IsMade (m : Moment) : Prop where
  made : ∃ origin : Origin, origin.moment? = some m ∧ ∀ text, origin ≠ .document text
  year_le : ∀ date, m.date = some date → date.year.natAbs ≤ maxYear

theorem IsMade.withinDay (h : m.IsMade) : m.WithinDay ∧ m.Dated := by
  obtain ⟨origin, hmoment, hchecked⟩ := h.made
  exact Origin.withinDay hmoment hchecked

/-- The moment falls on the date, and its bytes are the whole text, whose layout gives back the
kind and the seven components of the moment. -/
structure SaysAll (m : Moment) (date : CivilDate) (text : Text) : Prop where
  date_eq : m.date = some date
  text_eq : m.text = some text
  bytes_eq : m.bytes = some text.utf8
  read_eq : MomentParts.read? (Text.ofBytes text.utf8) = some ⟨m.kind, date, m.clock⟩

theorem IsMade.saysAll (h : m.IsMade) (hdate : m.date = some date) :
    m.SaysAll date (m.textOn date) where
  date_eq := hdate
  text_eq := by rw [text, hdate, Option.map_some]
  bytes_eq := Moment.bytes_eq h.withinDay.1 hdate (h.year_le date hdate)
  read_eq := by
    rw [Text.ofBytes_utf8_of_ascii (m.textOn_isAscii date),
      read?_textOn h.withinDay.1 (date_valid hdate).1]

/-- The bytes of a moment are its whole text, and the layout of the text gives back its kind and its
seven components.  So two moments with the same bytes are the same, and the bytes of moments of the
same kind are in the order of the moments, if the years have four digits and no sign. -/
theorem bytes_lossless (hm : m.IsMade) (hn : n.IsMade) :
    ∃ date text other text', m.SaysAll date text ∧ n.SaysAll other text' ∧
      (m.bytes = n.bytes ↔ m = n) ∧
      (m.kind = n.kind → date.FourDigits → other.FourDigits →
        compareBytes text.utf8 text'.utf8 = m.compare n) := by
  obtain ⟨date, hmDate⟩ := exists_date_iff.2 hm.withinDay.2
  obtain ⟨other, hnDate⟩ := exists_date_iff.2 hn.withinDay.2
  have hmAll := hm.saysAll hmDate
  have hnAll := hn.saysAll hnDate
  refine ⟨date, _, other, _, hmAll, hnAll, ⟨fun hsame => ?_, fun h => by rw [h]⟩,
    compareBytes_textOn hm.withinDay.1 hn.withinDay.1 hmDate hnDate⟩
  rw [hmAll.bytes_eq, hnAll.bytes_eq, Option.some.injEq] at hsame
  have hparts := hmAll.read_eq
  rw [hsame, hnAll.read_eq, Option.some.injEq, MomentParts.mk.injEq] at hparts
  obtain ⟨hkind, hdate, hclock⟩ := hparts
  exact hm.withinDay.1.eq_of_parts_eq hn.withinDay.1 hm.withinDay.2 hn.withinDay.2 hkind.symm
    (by rw [hmDate, hnDate, hdate]) hclock.symm

/-- The last second of a leap day and the microsecond after it: one text is a start of the
other. -/
theorem bytes_lossless_start :
    ∃ m n : Moment, m.IsMade ∧ n.IsMade ∧ m.bytes = some (bytesOf "0000-02-29 23:59:59") ∧
      n.bytes = some (bytesOf "0000-02-29 23:59:59.000001") ∧
      compareBytes (bytesOf "0000-02-29 23:59:59") (bytesOf "0000-02-29 23:59:59.000001") = .lt ∧
      MomentParts.read? (Text.ofBytes (bytesOf "0000-02-29 23:59:59.000001")) =
        some ⟨.dateTime, ⟨0, 2, 29⟩, ⟨23, 59, 59, 1⟩⟩ := by
  let m : Moment := ⟨⟨-719469, by decide, by decide⟩, ⟨86399000000, by decide⟩, .dateTime⟩
  let n : Moment := ⟨⟨-719469, by decide, by decide⟩, ⟨86399000001, by decide⟩, .dateTime⟩
  have hmDate : m.date = some ⟨0, 2, 29⟩ := by decide
  have hnDate : n.date = some ⟨0, 2, 29⟩ := by decide
  have hm : m.IsMade := ⟨⟨.dateTime ⟨0, 2, 29⟩ ⟨23, 59, 59, 0⟩, by decide, by simp⟩, by
    rintro date hdate
    obtain rfl := Option.some.inj (hmDate.symm.trans hdate)
    decide⟩
  have hn : n.IsMade := ⟨⟨.dateTime ⟨0, 2, 29⟩ ⟨23, 59, 59, 1⟩, by decide, by simp⟩, by
    rintro date hdate
    obtain rfl := Option.some.inj (hnDate.symm.trans hdate)
    decide⟩
  obtain ⟨date, text, other, text', hmAll, hnAll, -, horder⟩ := bytes_lossless hm hn
  obtain rfl := Option.some.inj (hmDate.symm.trans hmAll.date_eq)
  obtain rfl := Option.some.inj (hnDate.symm.trans hnAll.date_eq)
  have hmBytes : m.bytes = some (bytesOf "0000-02-29 23:59:59") := by decide
  have hnBytes : n.bytes = some (bytesOf "0000-02-29 23:59:59.000001") := by decide
  have hmText := Option.some.inj (hmBytes.symm.trans hmAll.bytes_eq)
  have hnText := Option.some.inj (hnBytes.symm.trans hnAll.bytes_eq)
  have hclock : n.clock = ⟨23, 59, 59, 1⟩ := by decide
  refine ⟨m, n, hm, hn, hmBytes, hnBytes, ?_, ?_⟩
  · rw [hmText, hnText, horder rfl ⟨by decide, by decide⟩ ⟨by decide, by decide⟩]
    decide
  · rw [hnText, hnAll.read_eq, hclock]

end Moment

end ResultSet
