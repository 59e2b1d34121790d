import ResultSet.Field.Basic
import ResultSet.Proofs.Calendar.Moments

/-!
# Moments and their timestamps

`Moment.instant` is the number of microseconds from the epoch to a moment, without a bound on it.

* Moments of one kind are in the order of their instants (`compare_eq_instant`).
* The moment of a timestamp has the timestamp as its instant (`instant_ofTimestamp`).
* A timestamp is computed in two steps, up to midnight and from there, and both have to stay in a
  word of 64 bits.  So it exists only from the first midnight on that has a timestamp itself
  (`timestamp_eq_some_iff`), and the timestamps before that midnight make moments that have none
  (`timestamp_of_ofTimestamp`).
-/

namespace ResultSet

open Calendar

namespace Moment

/-- Microseconds since the epoch. -/
def instant (m : Moment) : Int := m.day.val * microsPerDay + m.micros.val

/-- The first day whose midnight has a timestamp. -/
def firstTimedDay : Int := -106751991

/-- The first midnight that has a timestamp. -/
def firstMidnight : Int := firstTimedDay * microsPerDay

/-! ## Order -/

/-- The day decides first, since the microseconds lie within it. -/
theorem compare_eq_instant {m n : Moment} (hm : m.micros.val < microsPerDay)
    (hn : n.micros.val < microsPerDay) (hkind : m.kind = n.kind) :
    m.compare n = Ord.compare m.instant n.instant := by
  rw [compare_of_kind_eq hkind, instant, instant]
  rw [microsPerDay, microsPerSecond] at *
  rcases Int.lt_trichotomy m.day.val n.day.val with hday | hday | hday
  · rw [Int.compare_eq_lt.2 hday, Ordering.lt_then, Int.compare_eq_lt.2 (by omega)]
  · rw [hday, Int.compare_eq_eq.2 rfl, Ordering.eq_then]
    rcases Nat.lt_trichotomy m.micros.val n.micros.val with hmicros | hmicros | hmicros
    · rw [Nat.compare_eq_lt.2 hmicros, Int.compare_eq_lt.2 (by omega)]
    · rw [Nat.compare_eq_eq.2 hmicros, Int.compare_eq_eq.2 (by omega)]
    · rw [Nat.compare_eq_gt.2 hmicros, Int.compare_eq_gt.2 (by omega)]
  · rw [Int.compare_eq_gt.2 hday, Ordering.gt_then, Int.compare_eq_gt.2 (by omega)]

/-! ## Timestamps -/

theorem instant_ofTimestamp {t : Signed 64} {m : Moment} (h : ofTimestamp t = some m) :
    m.instant = t.val := by
  obtain ⟨hday, hmicros, -⟩ := ofTimestamp_eq_some_iff.1 h
  rw [instant, hday, hmicros, Int.mul_comm, Int.mul_ediv_add_emod]

theorem compare_ofTimestamp {t other : Signed 64} {m n : Moment} (hm : ofTimestamp t = some m)
    (hn : ofTimestamp other = some n) : m.compare n = Ord.compare t.val other.val := by
  have hkind : m.kind = n.kind :=
    (ofTimestamp_eq_some_iff.1 hm).2.2.trans (ofTimestamp_eq_some_iff.1 hn).2.2.symm
  rw [compare_eq_instant (micros_lt_of_ofTimestamp hm) (micros_lt_of_ofTimestamp hn) hkind,
    instant_ofTimestamp hm, instant_ofTimestamp hn]

/-- A moment has a timestamp exactly if its midnight has one and the instant is a timestamp. -/
theorem timestamp_eq_some_iff {m : Moment} (h : m.micros.val < microsPerDay) {t : Signed 64} :
    m.timestamp = some t ↔ firstTimedDay ≤ m.day.val ∧ m.instant = t.val := by
  have hmin := t.min_le
  have hmax := t.lt_max
  have hmicros : (m.micros.val : Int) < 2 ^ 63 := by
    rw [microsPerDay, microsPerSecond] at h
    omega
  -- the microseconds are read as a signed word, which does not change them
  let word : Signed 64 := ⟨m.micros.val, by omega, hmicros⟩
  have hword : Signed.wrap 64 m.micros.val = word := word.wrap_val (by decide)
  rw [timestamp, hword, Option.bind_eq_some_iff, firstTimedDay, instant]
  constructor
  · rintro ⟨midnight, hmidnight, hsum⟩
    rw [Signed.ofInt?_eq_some_iff] at hmidnight hsum
    have hmidnightMin := midnight.min_le
    rw [← hmidnight, hsum]
    rw [microsPerDay, microsPerSecond] at hmidnight
    exact ⟨by omega, rfl⟩
  · rintro ⟨hday, hinstant⟩
    have hfits : -((2 ^ (64 - 1) : Nat) : Int) ≤ m.day.val * microsPerDay ∧
        m.day.val * microsPerDay < ((2 ^ (64 - 1) : Nat) : Int) := by
      refine ⟨?_, by omega⟩
      rw [microsPerDay, microsPerSecond]
      omega
    exact ⟨⟨_, hfits.1, hfits.2⟩, Signed.ofInt?_eq_some_iff.2 rfl,
      Signed.ofInt?_eq_some_iff.2 hinstant.symm⟩

/-- The timestamp is given back from the first midnight on that has one itself. -/
theorem timestamp_eq_ite {t : Signed 64} {m : Moment} (h : ofTimestamp t = some m) :
    m.timestamp = if firstMidnight ≤ t.val then some t else none := by
  have hmicros := micros_lt_of_ofTimestamp h
  have hinstant := instant_ofTimestamp h
  have hday : firstTimedDay ≤ m.day.val ↔ firstMidnight ≤ t.val := by
    rw [← hinstant, firstMidnight, instant, firstTimedDay]
    rw [microsPerDay, microsPerSecond] at *
    omega
  split
  · rename_i hlate
    exact (timestamp_eq_some_iff hmicros).2 ⟨hday.2 hlate, hinstant⟩
  · rename_i hearly
    refine Option.eq_none_iff_forall_ne_some.2 fun other hother => hearly ?_
    exact hday.1 ((timestamp_eq_some_iff hmicros).1 hother).1

/-- Every timestamp makes a moment of its own instant, so these moments are in the order of their
timestamps.  The timestamp is given back from the first midnight on; before it the moment has no
timestamp, and no field. -/
theorem timestamp_of_ofTimestamp (t : Signed 64) :
    ∃ m, ofTimestamp t = some m ∧ m.micros.val < microsPerDay ∧ m.instant = t.val ∧
      m.timestamp = (if firstMidnight ≤ t.val then some t else none) ∧
      Field.ofMoment m = (if firstMidnight ≤ t.val then some (.int64 t) else none) ∧
      ∀ other, ∃ n, ofTimestamp other = some n ∧
        m.compare n = Ord.compare t.val other.val := by
  obtain ⟨m, hm⟩ := exists_ofTimestamp t
  refine ⟨m, hm, micros_lt_of_ofTimestamp hm, instant_ofTimestamp hm, timestamp_eq_ite hm, ?_, ?_⟩
  · rw [Field.ofMoment, timestamp_eq_ite hm]
    split
    · rfl
    · rfl
  · intro other
    obtain ⟨n, hn⟩ := exists_ofTimestamp other
    exact ⟨n, hn, compare_ofTimestamp hm hn⟩

/-- The first timestamp of all makes a moment whose midnight lies before the timestamps. -/
theorem timestamp_none_first :
    ∃ m, ofTimestamp ⟨-9223372036854775808, by decide, by decide⟩ = some m ∧
      m.day.val = -106751992 ∧ m.micros.val = 71945224192 ∧
      m.timestamp = none ∧ Field.ofMoment m = none :=
  ⟨⟨⟨-106751992, by decide, by decide⟩, ⟨71945224192, by decide⟩, .dateTime⟩,
    by decide, rfl, rfl, by decide, by decide⟩

end Moment

end ResultSet
