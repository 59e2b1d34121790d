import ResultSet.Calendar.Civil
import ResultSet.Number.Digits

/-!
# Moments

`Moment` is a calendar date, or a date with a time of day, in UTC.  It is stored
as a day and the microseconds since midnight.

* `Moment.ofDate`, `Moment.ofDateTime` and `Moment.ofTimestamp` check what they
  are given.
* `Moment.date` finds the calendar date of the day.
* `Moment.text` writes `YYYY-MM-DD`, followed by the time of day unless the
  moment is a bare date.
* `Moment.compare` orders by day, then time, then bare dates first.

Dates are counted in words of 32 bits.  Where nothing stands for a count that leaves the word, a
constructor answers `some none` when it refuses what it is given.
-/

namespace ResultSet

/-- Whether a moment has a time of day. -/
inductive MomentKind where
  | date
  | dateTime
deriving DecidableEq

/-- A date or a date with a time of day. -/
structure Moment where
  /-- days since 1970-01-01 -/
  day : Signed 32
  /-- microseconds since midnight -/
  micros : Unsigned 64
  kind : MomentKind
deriving DecidableEq

/-- A time of day in parts. -/
structure ClockTime where
  hour : Nat
  minute : Nat
  second : Nat
  micros : Nat
deriving DecidableEq

namespace Moment

/-- Microseconds of a second. -/
def microsPerSecond : Nat := 1000000

/-- Microseconds of a day. -/
def microsPerDay : Nat := 86400 * microsPerSecond

/-- Midnight of 1970-01-01. -/
def epoch : Moment := ⟨Signed.zero 32, Unsigned.zero 64, .dateTime⟩

/-- The bare date, unless it does not exist. -/
def ofDate (date : CivilDate) : Option (Option Moment) :=
  date.dayNumber?.map fun day => day.map fun day => ⟨day, Unsigned.zero 64, .date⟩

/-- Microseconds from midnight to a time of day, unless a part of it is out of
range. -/
def microsOfClock? (time : ClockTime) : Option (Unsigned 64) :=
  if time.hour < 24 ∧ time.minute < 60 ∧ time.second < 60 ∧ time.micros < microsPerSecond then
    Unsigned.ofNat? 64
      ((time.hour * 3600 + time.minute * 60 + time.second) * microsPerSecond + time.micros)
  else none

/-- The date and time, unless one of them does not exist.  The time is looked at first. -/
def ofDateTime (date : CivilDate) (time : ClockTime) : Option (Option Moment) :=
  match microsOfClock? time with
  | none => some none
  | some micros => date.dayNumber?.map fun day => day.map fun day => ⟨day, micros, .dateTime⟩

/-- The moment so many microseconds after the epoch, unless its day does not fit. -/
def ofTimestamp (timestamp : Signed 64) : Option Moment :=
  match Signed.ofInt? 32 (timestamp.val / microsPerDay),
    Unsigned.ofNat? 64 (timestamp.val % microsPerDay).toNat with
  | some day, some micros => some ⟨day, micros, .dateTime⟩
  | _, _ => none

/-- The calendar date. -/
def date (m : Moment) : Option CivilDate := Calendar.ofDayNumberInWord? m.day.val

/-- The hours since midnight, in a word of 32 bits. -/
def hour (m : Moment) : Nat := m.micros.val / microsPerSecond / 3600 % 2 ^ (32 : Nat)

/-- The minutes past the hour. -/
def minute (m : Moment) : Nat := m.micros.val / microsPerSecond / 60 % 60

/-- The seconds past the minute. -/
def second (m : Moment) : Nat := m.micros.val / microsPerSecond % 60

/-- The microseconds past the second. -/
def microsecond (m : Moment) : Nat := m.micros.val % microsPerSecond

/-- The time of day. -/
def clock (m : Moment) : ClockTime := ⟨m.hour, m.minute, m.second, m.microsecond⟩

/-- Microseconds since the epoch: those up to the start of the day, and the time
of day read as a signed word.  Nothing when the start of the day or the sum is
outside the words of 64 bits; so the first moments that a timestamp can name, on
a day that begins below that range, have none. -/
def timestamp (m : Moment) : Option (Signed 64) :=
  (Signed.ofInt? 64 (m.day.val * microsPerDay)).bind fun dayStart =>
    Signed.ofInt? 64 (dayStart.val + (Signed.wrap 64 m.micros.val).val)

/-- Bare dates come before dates with a time. -/
def kindRank : MomentKind → Nat
  | .date => 0
  | .dateTime => 1

/-- By day, then by time of day, then by kind. -/
def compare (left right : Moment) : Ordering :=
  (Ord.compare left.day.val right.day.val).then
    ((Ord.compare left.micros.val right.micros.val).then
      (Ord.compare (kindRank left.kind) (kindRank right.kind)))

/-! ## Text -/

/-- A date as year, month and day; a year has at least four digits. -/
def dateText (date : CivilDate) : Text :=
  (if date.year < 0 then ['-'] else []) ++ Digits.padded 4 date.year.natAbs ++
    ['-'] ++ Digits.padded 2 date.month ++ ['-'] ++ Digits.padded 2 date.day

/-- A time as hour, minute and second, and microseconds unless there are none. -/
def clockText (time : ClockTime) : Text :=
  Digits.padded 2 time.hour ++ [':'] ++ Digits.padded 2 time.minute ++ [':'] ++
    Digits.padded 2 time.second ++
    if time.micros = 0 then [] else '.' :: Digits.padded 6 time.micros

/-- The text of the moment when its day falls on the date: the date, followed by the time of day
unless the moment is a bare date. -/
def textOn (m : Moment) (date : CivilDate) : Text :=
  match m.kind with
  | .date => dateText date
  | .dateTime => dateText date ++ [' '] ++ clockText m.clock

/-- The text of the moment. -/
def text (m : Moment) : Option Text := m.date.map m.textOn

/-- Room for the text of a moment in an output row. -/
def textCapacity : Nat := 64

/-- The bytes of the text, as many as there is room for. -/
def bytes (m : Moment) : Option Bytes := m.text.map fun text => text.utf8.take textCapacity

end Moment

end ResultSet
