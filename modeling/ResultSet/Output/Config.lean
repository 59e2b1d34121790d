import ResultSet.Json.Decode
import ResultSet.Row.Buffer

/-!
# Writer configuration
-/

namespace ResultSet

open Json

/-- How a writer is set up. -/
structure WriterConfig where
  /-- encoders made up front for blocks; longer blocks get more -/
  batchSize : Nat
  /-- the limit of one row in bytes -/
  maxRowBytes : Nat
deriving DecidableEq

namespace WriterConfig

/-- The configuration unless something else is asked for. -/
def default : WriterConfig := ⟨4064, RowBuffer.defaultLimit⟩

/-- The keys of a configuration. -/
def keys : List String := ["batch_size", "max_row_bytes"]

/-- The configuration as a record. -/
def toJson (config : WriterConfig) : Json :=
  Json.record [("batch_size", Json.int config.batchSize),
    ("max_row_bytes", Json.int config.maxRowBytes)]

/-- Reads a size, which has a default when its key is missing. -/
def decodeSize (missing : Nat) (depth : Nat) : Option Json → Option Nat
  | none => some missing
  | some document => (decodeUnsigned 64 depth document).map (·.val)

/-- Reads a configuration.  A missing key has its default. -/
def decode : Decoder WriterConfig := fun depth document =>
  match fields? keys depth document with
  | some (depth, [batchSize, maxRowBytes]) =>
    match decodeSize default.batchSize depth batchSize,
      decodeSize default.maxRowBytes depth maxRowBytes with
    | some batchSize, some maxRowBytes => some ⟨batchSize, maxRowBytes⟩
    | _, _ => none
  | _ => none

end WriterConfig

end ResultSet
