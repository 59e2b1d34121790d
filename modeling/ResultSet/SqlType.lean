import ResultSet.Json.Decode

/-!
# Declared types

The logical types that output expressions and columns are declared with.
-/

namespace ResultSet

open Json

/-- A logical type. -/
inductive SqlType where
  | null
  | boolean
  | tinyInt
  | smallInt
  | int
  | bigInt
  | largeInt
  | float
  | double
  /-- seconds as a double, shown as a time of day -/
  | time
  | date
  | dateTime
  | char
  | varchar
  | string
  /-- a HyperLogLog sketch -/
  | hll
  /-- a binary object such as a bitmap -/
  | object
  /-- a decimal of any number of digits -/
  | decimal
  /-- a decimal in billionths -/
  | decimalV2
  | binary
  | array
deriving DecidableEq

namespace SqlType

/-- Every type. -/
def all : List SqlType :=
  [.null, .boolean, .tinyInt, .smallInt, .int, .bigInt, .largeInt, .float, .double, .time,
    .date, .dateTime, .char, .varchar, .string, .hll, .object, .decimal, .decimalV2, .binary,
    .array]

/-- The name of the type in reports. -/
def name : SqlType → String
  | .null => "NULL"
  | .boolean => "BOOLEAN"
  | .tinyInt => "TINYINT"
  | .smallInt => "SMALLINT"
  | .int => "INT"
  | .bigInt => "BIGINT"
  | .largeInt => "LARGEINT"
  | .float => "FLOAT"
  | .double => "DOUBLE"
  | .time => "TIME"
  | .date => "DATE"
  | .dateTime => "DATETIME"
  | .char => "CHAR"
  | .varchar => "VARCHAR"
  | .string => "STRING"
  | .hll => "HLL"
  | .object => "OBJECT"
  | .decimal => "DECIMAL"
  | .decimalV2 => "DECIMALV2"
  | .binary => "BINARY"
  | .array => "ARRAY"

/-- The name of the type in JSON. -/
def caseName : SqlType → String
  | .null => "Null"
  | .boolean => "Boolean"
  | .tinyInt => "TinyInt"
  | .smallInt => "SmallInt"
  | .int => "Int"
  | .bigInt => "BigInt"
  | .largeInt => "LargeInt"
  | .float => "Float"
  | .double => "Double"
  | .time => "Time"
  | .date => "Date"
  | .dateTime => "DateTime"
  | .char => "Char"
  | .varchar => "Varchar"
  | .string => "String"
  | .hll => "Hll"
  | .object => "Object"
  | .decimal => "Decimal"
  | .decimalV2 => "DecimalV2"
  | .binary => "Binary"
  | .array => "Array"

/-- The type is one of the character types. -/
def isString : SqlType → Bool
  | .char | .varchar | .string => true
  | _ => false

/-- The type is one of the decimals. -/
def isDecimal : SqlType → Bool
  | .decimal | .decimalV2 => true
  | _ => false

/-- The type is one of the integers. -/
def isInteger : SqlType → Bool
  | .tinyInt | .smallInt | .int | .bigInt | .largeInt => true
  | _ => false

/-- A value of the type may be declared nullable. -/
def canBeNullable : SqlType → Bool
  | .null | .array => false
  | _ => true

/-- The name as a string. -/
def toJson (type : SqlType) : Json := Json.case type.caseName

/-- Reads the name of a type. -/
def decode : Decoder SqlType := decodeNamed all caseName

end SqlType

/-- A logical type with its nullability. -/
structure ColumnType where
  primitive : SqlType
  nullable : Bool
deriving DecidableEq

namespace ColumnType

/-- The type without nulls. -/
def plain (primitive : SqlType) : ColumnType := ⟨primitive, false⟩

/-- The type with nulls, unless it cannot have them. -/
def ofNullable (primitive : SqlType) : Option ColumnType :=
  if primitive.canBeNullable then some ⟨primitive, true⟩ else none

/-- The text of the type. -/
def text (type : ColumnType) : Text :=
  if type.nullable then "Nullable(".toList ++ type.primitive.name.toList ++ [')']
  else type.primitive.name.toList

/-- The keys of a type. -/
def keys : List String := ["primitive", "nullable"]

/-- The record of type and nullability. -/
def toJson (type : ColumnType) : Json :=
  Json.record [("primitive", type.primitive.toJson), ("nullable", .bool type.nullable)]

/-- Reads the record of type and nullability. -/
def decode : Decoder ColumnType := fun depth document =>
  match fields? keys depth document with
  | some (depth, [some primitive, some nullable]) =>
    match SqlType.decode depth primitive, decodeBool depth nullable with
    | some primitive, some nullable => some ⟨primitive, nullable⟩
    | _, _ => none
  | _ => none

end ColumnType

end ResultSet
