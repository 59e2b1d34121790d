import ResultSet.Binary.Layout
import ResultSet.Field.Basic
import ResultSet.Text.Lossy

/-!
# Text of fields

The form in which a field is shown to a reader.
-/

namespace ResultSet

namespace Field

/-- Floats never have an exponent, and whole ones no point. -/
def floatLayout : FloatLayout where
  tie := .up
  positional := fun _ => true
  whole := []
  positiveSign := []
  notANumber := "NaN".toList
  infinite := "inf".toList

mutual

/-- The text of a field. -/
def text : Field → Text
  | .null => "NULL".toList
  | .uint64 v => Digits.ofNat v.val
  | .int64 v => Digits.ofInt v.val
  | .float64 v => floatLayout.render v
  | .uint128 v => Digits.ofNat v.val
  | .int128 v => Digits.ofInt v.val
  | .string v => '\'' :: (Text.ofBytes v ++ ['\''])
  | .array fields => '[' :: (textList fields ++ [']'])
  | .tuple fields => '(' :: (textList fields ++ [')'])
  | .decimal _ v => v.text
  | .aggregateState v => "AggregateFunctionState(".toList ++ v.function ++ [')']

/-- The texts of fields with commas between them. -/
def textList : List Field → Text
  | [] => []
  | [f] => text f
  | f :: g :: fields => text f ++ [',', ' '] ++ textList (g :: fields)

end

end Field

end ResultSet
