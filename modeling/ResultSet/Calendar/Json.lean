import ResultSet.Calendar.Moment
import ResultSet.Json.Decode

/-!
# Moments in JSON

A moment is the record of its day, its microseconds since midnight and its kind.
They are read as they stand: a number of microseconds beyond the end of the day
is kept.
-/

namespace ResultSet

open Json

namespace MomentKind

/-- The name of the kind. -/
def name : MomentKind → String
  | .date => "Date"
  | .dateTime => "DateTime"

/-- The name as a string. -/
def toJson (kind : MomentKind) : Json := Json.case kind.name

/-- Reads the name of a kind. -/
def decode : Decoder MomentKind := decodeNamed [.date, .dateTime] name

end MomentKind

namespace Moment

/-- The keys of a moment. -/
def keys : List String := ["days_since_epoch", "micros_of_day", "kind"]

/-- The record of day, microseconds and kind. -/
def toJson (m : Moment) : Json :=
  Json.record [("days_since_epoch", Json.int m.day.val), ("micros_of_day", Json.int m.micros.val),
    ("kind", m.kind.toJson)]

/-- Reads the record of day, microseconds and kind. -/
def decode : Decoder Moment := fun depth document =>
  match fields? keys depth document with
  | some (depth, [some day, some micros, some kind]) =>
    match decodeSigned 32 depth day, decodeUnsigned 64 depth micros,
      MomentKind.decode depth kind with
    | some day, some micros, some kind => some ⟨day, micros, kind⟩
    | _, _, _ => none
  | _ => none

end Moment

end ResultSet
