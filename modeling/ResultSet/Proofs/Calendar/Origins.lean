import ResultSet.Calendar.Json
import ResultSet.Proofs.Calendar.Moments
import ResultSet.Proofs.Json.Decoding
import ResultSet.Proofs.Json.Render

/-!
# Where moments come from

A moment comes from a date, a date with a time of day, a timestamp, the epoch or a document
(`Moment.Origin`).  A moment is real if its components name a time that exists and make the
moment again (`Moment.IsReal`).

All origins but documents check what they are given, so their moments are real and have a date.  A
document is read as it stands: every moment has one (`decodeText_toJson`), whatever its day and its
microseconds are, so a moment that was read is real only if these lie within the day.
-/

namespace ResultSet

open Calendar Json

namespace Moment

/-! ## Moments in documents -/

theorem toJson_written (m : Moment) : Written m.toJson := by
  apply Written.record
  · simp; decide
  · simp [Written.int, MomentKind.toJson, Json.case, Written.text]

theorem decode_toJson (m : Moment) (limit : Nat) : decode (limit + 1) m.toJson = some m := by
  have hfields : fields? keys (limit + 1) m.toJson =
      some (limit, [some (int m.day.val), some (int m.micros.val), some m.kind.toJson]) := by
    simp [fields?, keys, toJson, record, lookup?, JsonKey.plain]
  have hkind : MomentKind.decode limit m.kind.toJson = some m.kind := by
    cases m.kind <;> cases limit <;> rfl
  rw [decode, hfields]
  dsimp only
  rw [decodeSigned_int (by decide), decodeUnsigned_int (by decide), hkind]

/-- Every moment is read from its own document. -/
theorem decodeText_toJson (m : Moment) : decodeText decode m.toJson.render = some m := by
  rw [decodeText, parse_render m.toJson_written, Option.bind_some]
  exact m.decode_toJson 126

/-- The last day that a moment can name.  It is too far from era 0 to have a date. -/
def lastMidnight : Moment := ⟨⟨2147483647, by decide, by decide⟩, Unsigned.zero 64, .dateTime⟩

/-- The document that names it. -/
def lastMidnightDocument : Text :=
  "\x7b\"days_since_epoch\":2147483647,\"micros_of_day\":0,\"kind\":\"DateTime\"\x7d".toList

theorem decodeText_lastMidnight : decodeText decode lastMidnightDocument = some lastMidnight := by
  have htext : lastMidnight.toJson.render = lastMidnightDocument := by decide
  rw [← htext]
  exact lastMidnight.decodeText_toJson

/-! ## Origins -/

/-- What a moment can be made from. -/
inductive Origin where
  | date (date : CivilDate)
  | dateTime (date : CivilDate) (time : ClockTime)
  | timestamp (micros : Signed 64)
  | epoch
  | document (text : Text)

/-- The moment of the origin, unless the origin is refused or its day leaves the word. -/
def Origin.moment? : Origin → Option Moment
  | .date d => (ofDate d).join
  | .dateTime d time => (ofDateTime d time).join
  | .timestamp micros => ofTimestamp micros
  | .epoch => some Moment.epoch
  | .document text => decodeText decode text

/-- The microseconds lie within the day, and a bare date has none. -/
structure WithinDay (m : Moment) : Prop where
  micros_lt : m.micros.val < microsPerDay
  bare : m.kind = .date → m.micros.val = 0

/-- What the constructors make of the components of a moment that has a date. -/
def rebuilt (m : Moment) : Option (Option Moment) :=
  m.date.bind fun date =>
    match m.kind with
    | .date => ofDate date
    | .dateTime => ofDateTime date m.clock

/-- The components of the moment name a time that exists.  They make the moment again as far as
the days go that can be counted from era 0, in words of 32 bits throughout. -/
structure IsReal (m : Moment) : Prop extends WithinDay m where
  clock_valid : m.clock.Valid
  rebuilt_eq : InWord (m.day.val + eraOffset) → ∃ date, m.date = some date ∧ date.Valid ∧
    dayNumberInWord? date = some m.day.val ∧ m.rebuilt = some (some m)

/-- A moment within its day is made again from its components, if it has a date. -/
theorem WithinDay.rebuilt_eq {m : Moment} (h : m.WithinDay) (hdated : m.Dated) :
    m.rebuilt = some (some m) := by
  obtain ⟨hvalid, hday⟩ := CivilDate.dayNumber_ofDayNumber m.day.val
  obtain ⟨hclock, hmicros⟩ := Moment.clock_valid h.micros_lt
  have hshifted := (inWord_shifted_iff m.day).2 hdated
  rw [rebuilt, hdated.date_eq, Option.bind_some]
  cases hkind : m.kind with
  | date => exact ofDate_eq_some_iff.2 ⟨hvalid, hday.symm, hshifted, h.bare hkind, hkind⟩
  | dateTime =>
    exact ofDateTime_eq_some_iff.2 ⟨hvalid, hclock, hday.symm, hshifted, hmicros.symm, hkind⟩

/-- Nothing but the microseconds keeps a moment from being real. -/
theorem isReal_iff_withinDay {m : Moment} : m.IsReal ↔ m.WithinDay := by
  refine ⟨IsReal.toWithinDay, fun h => ⟨h, (Moment.clock_valid h.micros_lt).1, ?_⟩⟩
  intro hshifted
  have hdated : m.Dated := (inWord_shifted_iff m.day).1 hshifted
  exact ⟨_, hdated.date_eq, (CivilDate.dayNumber_ofDayNumber m.day.val).1,
    dayNumberInWord?_ofDayNumber m.day.inWord hshifted, h.rebuilt_eq hdated⟩

/-- Everything but a document is checked to lie within the day, and has a date. -/
theorem Origin.withinDay {origin : Origin} {m : Moment} (h : origin.moment? = some m)
    (hchecked : ∀ text, origin ≠ .document text) : m.WithinDay ∧ m.Dated := by
  cases origin with
  | date date =>
    obtain ⟨-, -, hshifted, hzero, -⟩ := ofDate_eq_some_iff.1 (Option.join_eq_some_iff.1 h)
    exact ⟨⟨by rw [hzero]; decide, fun _ => hzero⟩, (inWord_shifted_iff m.day).1 hshifted⟩
  | dateTime date time =>
    obtain ⟨-, htime, -, hshifted, hmicros, hkind⟩ :=
      ofDateTime_eq_some_iff.1 (Option.join_eq_some_iff.1 h)
    exact ⟨⟨hmicros ▸ htime.sinceMidnight_lt, fun hdate => nomatch hdate.symm.trans hkind⟩,
      (inWord_shifted_iff m.day).1 hshifted⟩
  | timestamp micros =>
    have hkind := (ofTimestamp_eq_some_iff.1 h).2.2
    exact ⟨⟨micros_lt_of_ofTimestamp h, fun hdate => nomatch hdate.symm.trans hkind⟩,
      dated_of_ofTimestamp h⟩
  | epoch =>
    obtain rfl : Moment.epoch = m := Option.some.inj h
    exact ⟨⟨by decide, fun _ => rfl⟩, by decide⟩
  | document text => exact absurd rfl (hchecked text)

/-- A moment is real whatever it was made from, except that a document has to say that the
microseconds lie within the day; and every moment has a document.  Only a document can name a day
that cannot be counted from era 0. -/
theorem isReal_iff_of_origin {origin : Origin} {m : Moment} (h : origin.moment? = some m) :
    (m.IsReal ↔ ∀ text, origin = .document text → m.WithinDay) ∧
      (Origin.document m.toJson.render).moment? = some m ∧
      ((∀ text, origin ≠ .document text) → InWord (m.day.val + eraOffset)) := by
  refine ⟨⟨fun hreal _ _ => hreal.toWithinDay, fun hdocument => ?_⟩, m.decodeText_toJson,
    fun hchecked => (inWord_shifted_iff m.day).2 (Origin.withinDay h hchecked).2⟩
  rw [isReal_iff_withinDay]
  by_cases hread : ∃ text, origin = .document text
  · obtain ⟨text, htext⟩ := hread
    exact hdocument text htext
  · exact (Origin.withinDay h fun text htext => hread ⟨text, htext⟩).1

/-- The last moment of a leap day is real. -/
theorem isReal_lastMicrosecond :
    ∃ m, (Origin.dateTime ⟨2024, 2, 29⟩ ⟨23, 59, 59, 999999⟩).moment? = some m ∧ m.IsReal := by
  have hmade : ∃ m, (Origin.dateTime ⟨2024, 2, 29⟩ ⟨23, 59, 59, 999999⟩).moment? = some m :=
    Option.isSome_iff_exists.1 (by decide)
  obtain ⟨m, hm⟩ := hmade
  exact ⟨m, hm, (isReal_iff_of_origin hm).1.2 (fun text htext => nomatch htext)⟩

/-- A document can name the end of a day, at 24 hours. -/
theorem not_isReal_document :
    let text :=
      "\x7b\"days_since_epoch\":0,\"micros_of_day\":86400000000,\"kind\":\"DateTime\"\x7d".toList
    ∃ m, (Origin.document text).moment? = some m ∧
      m.hour = 24 ∧ m.rebuilt = some none ∧ ¬m.IsReal := by
  intro text
  let endOfDay : Moment := ⟨Signed.zero 32, ⟨86400000000, by decide⟩, .dateTime⟩
  have htext : endOfDay.toJson.render = text := by decide
  refine ⟨endOfDay, ?_, by decide, by decide, fun hreal => absurd hreal.micros_lt (by decide)⟩
  rw [← htext]
  exact endOfDay.decodeText_toJson

end Moment

end ResultSet
