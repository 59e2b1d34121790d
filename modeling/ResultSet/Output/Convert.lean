import ResultSet.Output.Cell
import ResultSet.Output.Pending

/-!
# Converting batches

Rows of tuples are encoded one after the other by one encoder.  A block is
encoded column by column: every row has an encoder of its own, which writes the
cell of that row, and the cells are appended to the rows of the batch.
-/

namespace ResultSet

variable {E : Type} [RowEncoder E]

/-- The encoder after a push that failed is the one before it. -/
def pushValue (encoder : E) (v : WireValue) : E × Except WriterError Unit :=
  match RowEncoder.push v encoder with
  | .ok encoder => (encoder, .ok ())
  | .error e => (encoder, .error (.encoding e))

/-- A cell that cannot be written leaves the encoder alone. -/
def pushCell (encoder : E) : WireCell → E × Except WriterError Unit
  | .error e => (encoder, .error e)
  | .ok v => pushValue encoder v

/-! ## Tuples -/

/-- What an expression writes for a row. -/
def RowExpr.toWire (expr : RowExpr) (row : TupleRow) : WireCell :=
  match expr.value row with
  | none => .ok .null
  | some datum => datum.toWire expr.type expr.scale

/-- Pushes the values of a row up to the first one that fails. -/
def pushRow (encoder : E) (row : TupleRow) : List RowExpr → E × Except WriterError Unit
  | [] => (encoder, .ok ())
  | expr :: exprs =>
    match pushCell encoder (expr.toWire row) with
    | (encoder, .error e) => (encoder, .error e)
    | (encoder, .ok ()) => pushRow encoder row exprs

/-- Converts rows up to the first one that fails; `index` is the number of the
first one. -/
def convertRows (exprs : List RowExpr) :
    (index : Nat) → List TupleRow → E → PendingBatch → E × PendingBatch × Except WriterError Unit
  | _, [], encoder, pending => (encoder, pending.complete, .ok ())
  | index, row :: rows, encoder, pending =>
    let pending := pending.begin index
    match pushRow (RowEncoder.reset encoder) row exprs with
    | (encoder, .error e) => (encoder, pending, .error e)
    | (encoder, .ok ()) =>
      convertRows exprs (index + 1) rows encoder (pending.pushRow (RowEncoder.row encoder))

/-! ## Blocks -/

/-- Pushes one cell to each encoder, up to the first push that fails.  `row` is
the number of the first row. -/
def pushColumn (column : Nat) : (row : Nat) → List WireCell → List E →
    List E × Except WriterError Unit
  | _, _, [] => ([], .ok ())
  | row, [], encoder :: encoders =>
    (RowEncoder.reset encoder :: encoders, .error (.missingRow column row))
  | row, cell :: cells, encoder :: encoders =>
    match pushCell (RowEncoder.reset encoder) cell with
    | (encoder, .error e) => (encoder :: encoders, .error e)
    | (encoder, .ok ()) =>
      let (encoders, result) := pushColumn column (row + 1) cells encoders
      (encoder :: encoders, result)

/-- Converts output columns up to the first one that fails; `index` is the number
of the first one. -/
def convertColumns (block : Block) (limit : Nat) :
    (index : Nat) → List (ColumnExpr × Nat) → List E → PendingBatch →
      List E × PendingBatch × Except WriterError Unit
  | _, [], encoders, pending => (encoders, pending.complete, .ok ())
  | index, (expr, position) :: rest, encoders, pending =>
    let pending := pending.begin index
    match block.column? position with
    | none => (encoders, pending, .error (.missingColumn position block.width))
    | some c =>
      match c.column.toWire index expr.type expr.scale encoders.length with
      | .error e => (encoders, pending, .error e)
      | .ok cells =>
        match pushColumn index 0 cells encoders with
        | (encoders, .error e) => (encoders, pending, .error e)
        | (encoders, .ok ()) =>
          match pending.appendColumn (encoders.map RowEncoder.row) limit with
          | .error e => (encoders, pending, .error e)
          | .ok pending => convertColumns block limit (index + 1) rest encoders pending

/-- Executes the expressions on a block and converts their columns. -/
def convertBlock (exprs : List ColumnExpr) (block : Block) (limit : Nat) (encoders : List E)
    (pending : PendingBatch) : Block × List E × PendingBatch × Except WriterError Unit :=
  match ColumnExpr.executeAll exprs block with
  | (block, .error e) => (block, encoders, pending, .error e)
  | (block, .ok positions) =>
    (block, convertColumns block limit 0 (exprs.zip positions) encoders pending)

end ResultSet
