import ResultSet.Number.Digits
import ResultSet.Text.Hex

/-!
# Row errors

Why a row cannot be written or read, and the text that reports it.
-/

namespace ResultSet

/-- A row operation that has no result. -/
inductive RowError where
  /-- the row would be longer than its limit -/
  | tooLarge (size limit : Nat)
  /-- a value could not be written as text -/
  | format
  /-- the row ends inside a value -/
  | truncated (offset : Nat)
  /-- a byte that begins no length -/
  | invalidLength (mark : UInt8) (offset : Nat)
deriving DecidableEq

namespace RowError

/-- The name of a row error in answers. -/
def code : RowError → String
  | .tooLarge _ _ => "RowTooLarge"
  | .format => "Format"
  | .truncated _ => "Truncated"
  | .invalidLength _ _ => "InvalidLength"

/-- The report of a row error. -/
def message : RowError → Text
  | .tooLarge size limit =>
    "row of ".toList ++ Digits.ofNat size ++ " bytes exceeds the limit of ".toList ++
      Digits.ofNat limit ++ " bytes".toList
  | .format => "failed to format value as text".toList
  | .truncated offset => "row truncated at byte ".toList ++ Digits.ofNat offset
  | .invalidLength mark offset =>
    "invalid length prefix 0x".toList ++ Hex.ofByte mark ++ " at byte ".toList ++
      Digits.ofNat offset

end RowError

end ResultSet
