import ResultSet.Column.Error
import ResultSet.Row.Error
import ResultSet.SqlType

/-!
# Output errors

The states that a batch goes through, what can go wrong on its way, and the texts
that report it.
-/

namespace ResultSet

/-- Where a batch is on its way from conversion to delivery. -/
inductive BatchState where
  | empty
  /-- the position being converted: a row of tuples, or an output column of a
  block -/
  | converting (position : Nat)
  | complete
  | delivered
  | failed
deriving DecidableEq

/-- The name of a state in reports. -/
def BatchState.text : BatchState → Text
  | .empty => "Empty".toList
  | .converting position => "Converting(".toList ++ Digits.ofNat position ++ [')']
  | .complete => "Complete".toList
  | .delivered => "Delivered".toList
  | .failed => "Failed".toList

/-- Why a sink refuses a batch. -/
inductive SinkError where
  | closed
  | rejected (reason : Text)
deriving DecidableEq

/-- The report of a sink error. -/
def SinkError.message : SinkError → Text
  | .closed => "result sink is closed".toList
  | .rejected reason => "result sink rejected the batch: ".toList ++ reason

/-- What is wrong with the set-up of a writer or with the call. -/
inductive ConfigurationError where
  | sinkMissing
  | batchSizeZero
  | notInitialized
  /-- a writer of blocks was given tuples -/
  | tuplesForColumns
  /-- a writer of tuples was given a block -/
  | blockForTuples
deriving DecidableEq

/-- The report of a configuration error. -/
def ConfigurationError.message : ConfigurationError → String
  | .sinkMissing => "result sink is not set"
  | .batchSizeZero => "batch_size must be greater than zero"
  | .notInitialized => "result writer is not initialized"
  | .tuplesForColumns => "vectorized writer cannot convert row batches"
  | .blockForTuples => "row writer cannot convert blocks"

/-- A batch that could not be converted or delivered. -/
inductive WriterError where
  | configuration (e : ConfigurationError)
  /-- a type without a form on the wire -/
  | unsupportedType (type : SqlType)
  | encoding (e : RowError)
  /-- the storage of a column does not fit its declared type -/
  | columnType (column : Nat) (declared : SqlType) (stored : String)
  /-- the scale of a column does not fit its declared type -/
  | columnScale (column scale expected : Nat)
  /-- a value does not fit its declared type -/
  | datumType (declared : SqlType) (actual : String)
  | missingColumn (position columns : Nat)
  /-- a column has fewer rows than its block -/
  | missingRow (column row : Nat)
  /-- the date of a day leaves the word that it is counted in -/
  | undated (day : Int)
  | incompleteBatch (state : BatchState)
  | delivery (e : SinkError)
  | column (e : ColumnError)
deriving DecidableEq

/-- The conversion broke off in the middle of a cell and no error is handed over. -/
def WriterError.isPanic : WriterError → Bool
  | .missingRow _ _ | .undated _ => true
  | _ => false

/-- The name of a writer error in answers. -/
def WriterError.code : WriterError → String
  | .configuration _ => "Configuration"
  | .unsupportedType _ => "UnsupportedType"
  | .encoding _ => "Encoding"
  | .columnType _ _ _ => "ColumnTypeMismatch"
  | .columnScale _ _ _ => "ColumnScaleMismatch"
  | .datumType _ _ => "DatumTypeMismatch"
  | .missingColumn _ _ => "MissingColumn"
  | .missingRow _ _ => "MissingRow"
  | .undated _ => "Undated"
  | .incompleteBatch _ => "IncompleteBatch"
  | .delivery _ => "Delivery"
  | .column _ => "Column"

/-- The report of a writer error. -/
def WriterError.message : WriterError → Text
  | .configuration e =>
    "invalid result writer configuration: ".toList ++ e.message.toList
  | .unsupportedType type => "unsupported output type ".toList ++ type.name.toList
  | .encoding e => "pack mysql buffer failed: ".toList ++ e.message
  | .columnType position declared stored =>
    "output column ".toList ++ Digits.ofNat position ++ " declared as ".toList ++
      declared.name.toList ++ " is stored as ".toList ++ stored.toList
  | .columnScale position scale expected =>
    "output column ".toList ++ Digits.ofNat position ++ " has scale ".toList ++
      Digits.ofNat scale ++ ", expected ".toList ++ Digits.ofNat expected
  | .datumType declared actual =>
    actual.toList ++ " value cannot be written as ".toList ++ declared.name.toList
  | .missingColumn position columns =>
    "column position ".toList ++ Digits.ofNat position ++
      " is out of range for a block of ".toList ++ Digits.ofNat columns ++ " columns".toList
  | .missingRow position row =>
    "output column ".toList ++ Digits.ofNat position ++ " has no row ".toList ++
      Digits.ofNat row
  | .undated day => "day ".toList ++ Digits.ofInt day ++ " has no date".toList
  | .incompleteBatch state => "batch in state ".toList ++ state.text ++
      " cannot be delivered".toList
  | .delivery e => "failed to deliver batch: ".toList ++ e.message
  | .column e => e.message

end ResultSet
