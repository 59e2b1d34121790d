import ResultSet.Decimal.Json
import ResultSet.Field.Basic

/-!
# Fields in JSON

A field is a case named for its kind with the payload under that name; null is
the bare name.  Byte strings are lists of numbers, so bytes that are no text
survive.
-/

namespace ResultSet

open Json

namespace AggregateState

/-- The keys of an aggregate state. -/
def keys : List String := ["name", "data"]

/-- The record of function and data. -/
def toJson (v : AggregateState) : Json :=
  Json.record [("name", Json.text v.function), ("data", Json.bytes v.data)]

/-- Reads the record of function and data. -/
def decode : Decoder AggregateState := fun depth document =>
  match fields? keys depth document with
  | some (depth, [some function, some data]) =>
    match decodeString depth function, decodeBytes depth data with
    | some function, some data => some ⟨function, data⟩
    | _, _ => none
  | _ => none

end AggregateState

namespace FieldKind

/-- The name as a string. -/
def toJson (kind : FieldKind) : Json := Json.case kind.name

/-- Reads the name of a kind. -/
def decode : Decoder FieldKind := decodeNamed all name

end FieldKind

namespace Field

mutual

/-- The field as a case with its payload. -/
def toJson : Field → Json
  | .null => Json.case FieldKind.null.name
  | .uint64 v => Json.tagged FieldKind.uint64.name (Json.int v.val)
  | .int64 v => Json.tagged FieldKind.int64.name (Json.int v.val)
  | .float64 v => Json.tagged FieldKind.float64.name (Json.ofDouble v)
  | .uint128 v => Json.tagged FieldKind.uint128.name (Json.int v.val)
  | .int128 v => Json.tagged FieldKind.int128.name (Json.int v.val)
  | .string v => Json.tagged FieldKind.string.name (Json.bytes v)
  | .array fields => Json.tagged FieldKind.array.name (.array (listToJson fields))
  | .tuple fields => Json.tagged FieldKind.tuple.name (.array (listToJson fields))
  | .decimal width v => Json.tagged (FieldKind.decimal width).name v.toJson
  | .aggregateState v => Json.tagged FieldKind.aggregateState.name v.toJson

/-- The fields one after the other. -/
def listToJson : List Field → List Json
  | [] => []
  | f :: fields => toJson f :: listToJson fields

end

/-- Reads a payload that holds no other field. -/
def decodeScalar (kind : FieldKind) : Decoder Field := fun depth payload =>
  match kind with
  | .uint64 => (decodeUnsigned 64 depth payload).map .uint64
  | .int64 => (decodeSigned 64 depth payload).map .int64
  | .float64 => (decodeDouble depth payload).map .float64
  | .uint128 => (decodeUnsigned128 depth payload).map .uint128
  | .int128 => (decodeSigned128 depth payload).map .int128
  | .string => (decodeBytes depth payload).map .string
  | .decimal width => (FixedDecimal.decode width depth payload).map (.decimal width)
  | .aggregateState => (AggregateState.decode depth payload).map .aggregateState
  | .null | .array | .tuple => none

/-- The kind that a case names, and its payload. -/
def decodeKind (depth : Nat) (document : Json) : Option (FieldKind × Option (Nat × Json)) :=
  (case? depth document).bind fun (name, payload) =>
    (FieldKind.all.find? fun kind => kind.name.toList == name).map fun kind => (kind, payload)

/-- Reads a field, the items of an array or tuple with `items`. -/
def decodeWith (items : List Json → Option (List Field)) : Decoder Field :=
  fun depth document =>
    match decodeKind depth document with
    | some (.null, none) => some .null
    | some (.null, some (_, .null)) => some .null
    | some (.array, some (_, .array list)) => (items list).map .array
    | some (.tuple, some (_, .array list)) => (items list).map .tuple
    | some (kind, some (depth, payload)) => decodeScalar kind depth payload
    | _ => none

/-- Reads a field.  A case takes one level of depth and its list of items another,
so the items lie two levels deeper. -/
def decode : Decoder Field
  | depth + 2, document => decodeWith (List.mapM (decode depth)) (depth + 2) document
  | depth, document => decodeWith (fun _ => none) depth document

/-- Reads a list of fields. -/
def decodeFields : Decoder (List Field) := decodeList decode

/-- The fields as a list. -/
def fieldsToJson (fields : List Field) : Json := .array (listToJson fields)

end Field

end ResultSet
