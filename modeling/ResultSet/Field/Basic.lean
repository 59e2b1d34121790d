import ResultSet.Binary.Basic
import ResultSet.Calendar.Moment
import ResultSet.Decimal.Wide
import ResultSet.Field.Error

/-!
# Fields

`Field` is a scalar value of any kind.  Narrower values widen to one of its
canonical kinds: signed integers to `int64`, unsigned ones to `uint64`, floats to
`float64` and text to `string`.

A payload is read with `payload?`, and with `get`, which reports the kind found
when it is not the kind asked for.
-/

namespace ResultSet

/-- The serialized state of an aggregate function. -/
structure AggregateState where
  /-- the function that produced the state -/
  function : Text
  data : Bytes
deriving DecidableEq

/-- A dynamically typed value. -/
inductive Field where
  | null
  | uint64 (v : Unsigned 64)
  | int64 (v : Signed 64)
  | float64 (v : Binary64)
  | uint128 (v : Unsigned 128)
  | int128 (v : Signed 128)
  /-- raw bytes, not required to be valid UTF-8 -/
  | string (v : Bytes)
  | array (fields : List Field)
  | tuple (fields : List Field)
  | decimal (width : DecimalWidth) (v : FixedDecimal width)
  | aggregateState (v : AggregateState)

namespace Field

instance : Inhabited Field := ⟨.null⟩

/-- The kind of a field. -/
def kind : Field → FieldKind
  | .null => .null
  | .uint64 _ => .uint64
  | .int64 _ => .int64
  | .float64 _ => .float64
  | .uint128 _ => .uint128
  | .int128 _ => .int128
  | .string _ => .string
  | .array _ => .array
  | .tuple _ => .tuple
  | .decimal width _ => .decimal width
  | .aggregateState _ => .aggregateState

/-- The field holds no value. -/
def isNull (f : Field) : Bool := f.kind == .null

end Field

/-! ## Payloads -/

/-- What a field of each kind holds. -/
def FieldKind.Payload : FieldKind → Type
  | .null => Unit
  | .uint64 => Unsigned 64
  | .int64 => Signed 64
  | .float64 => Binary64
  | .uint128 => Unsigned 128
  | .int128 => Signed 128
  | .string => Bytes
  | .array => List Field
  | .tuple => List Field
  | .decimal width => FixedDecimal width
  | .aggregateState => AggregateState

namespace Field

/-- The field with a payload. -/
def ofPayload : (kind : FieldKind) → kind.Payload → Field
  | .null, _ => .null
  | .uint64, v => .uint64 v
  | .int64, v => .int64 v
  | .float64, v => .float64 v
  | .uint128, v => .uint128 v
  | .int128, v => .int128 v
  | .string, v => .string v
  | .array, v => .array v
  | .tuple, v => .tuple v
  | .decimal width, v => .decimal width v
  | .aggregateState, v => .aggregateState v

/-- The payload of a field, with its kind. -/
def toPayload : (f : Field) → f.kind.Payload
  | .null => ()
  | .uint64 v => v
  | .int64 v => v
  | .float64 v => v
  | .uint128 v => v
  | .int128 v => v
  | .string v => v
  | .array v => v
  | .tuple v => v
  | .decimal _ v => v
  | .aggregateState v => v

theorem ofPayload_toPayload (f : Field) : ofPayload f.kind f.toPayload = f := by
  cases f <;> rfl

/-- The payload when the field is of this kind. -/
def payload? (kind : FieldKind) (f : Field) : Option kind.Payload :=
  if h : f.kind = kind then some (h ▸ f.toPayload) else none

/-- The payload, or a report of the kind that was found. -/
def get (kind : FieldKind) (f : Field) : Except FieldError kind.Payload :=
  match f.payload? kind with
  | some v => .ok v
  | none => .error (.badGet f.kind kind)

/-- The payload of a field whose kind is taken for granted. -/
def expect (kind : FieldKind) (f : Field) : Except FieldError kind.Payload :=
  match f.payload? kind with
  | some v => .ok v
  | none => .error (.misuse .read f.kind kind)

/-- The field with its payload changed, or a report of the kind that was found. -/
def update (kind : FieldKind) (change : kind.Payload → kind.Payload) (f : Field) :
    Except FieldError Field :=
  match f.payload? kind with
  | some v => .ok (ofPayload kind (change v))
  | none => .error (.badGet f.kind kind)

/-- The field with its payload changed, its kind being taken for granted. -/
def expectUpdate (kind : FieldKind) (change : kind.Payload → kind.Payload) (f : Field) :
    Except FieldError Field :=
  match f.payload? kind with
  | some v => .ok (ofPayload kind (change v))
  | none => .error (.misuse .update f.kind kind)

/-- Whether the field is of this kind, and then its payload in place of `out`. -/
def copyInto (kind : FieldKind) (f : Field) (out : kind.Payload) : Bool × kind.Payload :=
  match f.payload? kind with
  | some v => (true, v)
  | none => (false, out)

/-! ## Canonical widening -/

/-- A signed integer of at most 64 bits. -/
def ofSigned {bits : Nat} (h : bits ≤ 64) (v : Signed bits) : Field := .int64 (Signed.widen h v)

/-- An unsigned integer of at most 64 bits. -/
def ofUnsigned {bits : Nat} (h : bits ≤ 64) (v : Unsigned bits) : Field :=
  .uint64 (Unsigned.widen h v)

/-- A truth value counts as 0 or 1. -/
def ofBool (v : Bool) : Field := .uint64 ⟨v.toNat, by cases v <;> decide⟩

/-- A single widens to a double. -/
def ofSingle (v : Binary32) : Field := .float64 v.toDouble

/-- A text is stored as its UTF-8 form. -/
def ofText (v : Text) : Field := .string v.utf8

/-- A moment is stored as microseconds since the epoch; one without a timestamp
is no field. -/
def ofMoment (v : Moment) : Option Field := v.timestamp.map .int64

/-- A wide decimal narrows to 128 bits when digits and scale fit, and is stored
as its exact text otherwise. -/
def ofWideDecimal (v : WideDecimal) : Field :=
  if 0 ≤ v.scale ∧ v.scale ≤ maxWordPower then
    match Signed.ofInt? 128 v.digits, Unsigned.ofNat? 32 v.scale.toNat with
    | some value, some scale => .decimal .w128 ⟨value, scale⟩
    | _, _ => ofText v.naturalText
  else ofText v.naturalText

/-- Nothing is stored as null. -/
def ofOption : Option Field → Field
  | none => .null
  | some f => f

end Field

end ResultSet
