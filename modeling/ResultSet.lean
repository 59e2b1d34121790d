import ResultSet.Calendar.Json
import ResultSet.Calendar.TimeOfDay
import ResultSet.Column.InPlace
import ResultSet.Column.Layout
import ResultSet.Field.Compare
import ResultSet.Field.Json
import ResultSet.Field.Text
import ResultSet.Number.LargeInt
import ResultSet.Output.Writer
import ResultSet.Proofs.Number.LargeInt
import ResultSet.Proofs.Column.Run
import ResultSet.Proofs.Column.StringRun
import ResultSet.Proofs.Output.CellText
import ResultSet.Proofs.Output.Agreement
import ResultSet.Proofs.Row.Session
import ResultSet.Row.Reader
import ResultSet.Row.Trace
import ResultSet.SqlType
import ResultSet.Proofs.Field.Plain
import ResultSet.Proofs.Field.Equality
import ResultSet.Proofs.Field.Order
import ResultSet.Proofs.Field.Comparability
import ResultSet.Proofs.Row.Grammar
import ResultSet.Proofs.Row.Walk
import ResultSet.Proofs.Output.Isolation
import ResultSet.Proofs.Json.Render
import ResultSet.Proofs.Json.Decoding
import ResultSet.Proofs.Field.RoundTrip
import ResultSet.Proofs.Column.Blocks
import ResultSet.Proofs.Output.RowWise
import ResultSet.Proofs.Output.Placeholders
import ResultSet.Proofs.Calendar.Counting
import ResultSet.Proofs.Output.Bounds
import ResultSet.Proofs.Output.Filter
import ResultSet.Proofs.Calendar.Gregorian
import ResultSet.Proofs.Calendar.Overflow
import ResultSet.Proofs.Calendar.Moments
import ResultSet.Proofs.Calendar.Origins
import ResultSet.Proofs.Calendar.Timestamps
import ResultSet.Proofs.Decimal.Value
import ResultSet.Proofs.Decimal.FixedText
import ResultSet.Proofs.Text.Ascii
import ResultSet.Proofs.Decimal.Grammar
import ResultSet.Proofs.Decimal.NaturalText
import ResultSet.Proofs.Decimal.WideText
import ResultSet.Proofs.Decimal.Cleaning
import ResultSet.Proofs.Decimal.CompactText
import ResultSet.Proofs.Field.Narrowing
import ResultSet.Proofs.Calendar.MomentText
import ResultSet.Proofs.Row.Canonical
import ResultSet.Proofs.Row.Cuts
import ResultSet.Proofs.Column.Composition
import ResultSet.Proofs.Binary.Value
import ResultSet.Proofs.Calendar.TimeOfDay
import ResultSet.Proofs.Output.Lifecycle
import ResultSet.Proofs.Decimal.ExactText
