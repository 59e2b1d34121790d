import ResultSet.Output.Sink

/-!
# Pending batches

A batch under conversion.  It gathers whole rows, or one column after the other,
and only a complete batch is offered to a sink.  Completion is final apart from
failure, and failure is final.
-/

namespace ResultSet

/-- A batch that is not delivered yet. -/
structure PendingBatch where
  batch : Batch
  state : BatchState
deriving DecidableEq

namespace PendingBatch

/-- A batch that gathers whole rows. -/
def new : PendingBatch := ⟨Batch.empty, .empty⟩

/-- A batch of empty rows that columns are appended to. -/
def withRows (rows : Nat) : PendingBatch := ⟨⟨List.replicate rows []⟩, .empty⟩

/-- The number of rows. -/
def length (p : PendingBatch) : Nat := p.batch.length

/-- Conversion has neither ended nor failed. -/
def isOpen (p : PendingBatch) : Bool :=
  match p.state with
  | .empty | .converting _ => true
  | .complete | .delivered | .failed => false

/-- Conversion goes on at a position. -/
def begin (p : PendingBatch) (position : Nat) : PendingBatch :=
  if p.isOpen then { p with state := .converting position } else p

/-- One more row. -/
def pushRow (p : PendingBatch) (row : Bytes) : PendingBatch :=
  { p with batch := p.batch.push row }

/-- The size of the first row that would outgrow the limit with its cell. -/
def outgrown (limit : Nat) : (rows cells : List Bytes) → Option Nat
  | row :: rows, cell :: cells =>
    if limit < row.length + cell.length then some (row.length + cell.length)
    else outgrown limit rows cells
  | _, _ => none

/-- Each row with its cell behind it. -/
def joinCells : (rows cells : List Bytes) → List Bytes
  | row :: rows, cell :: cells => (row ++ cell) :: joinCells rows cells
  | rows, _ => rows

/-- One more cell for every row.  No row is touched when one of them would grow
beyond the limit. -/
def appendColumn (p : PendingBatch) (cells : List Bytes) (limit : Nat) :
    Except WriterError PendingBatch :=
  match outgrown limit p.batch.rows cells with
  | some size => .error (.encoding (.tooLarge size limit))
  | none => .ok { p with batch := ⟨joinCells p.batch.rows cells⟩ }

/-! A column in place: first a pass that only looks for a row without room, then one that puts
the cells behind the rows.  A pass answers the rows as it leaves them, also when it is refused. -/

/-- A pass over the rows, each with its cell.  A row is replaced by what the visit makes of it,
and the first visit that is refused ends the pass. -/
def visitRows (visit : (row cell : Bytes) → Except WriterError Bytes) :
    (rows cells : List Bytes) → List Bytes × Except WriterError Unit
  | row :: rows, cell :: cells =>
    match visit row cell with
    | .error e => (row :: rows, .error e)
    | .ok visited =>
      let (rows, result) := visitRows visit rows cells
      (visited :: rows, result)
  | rows, _ => (rows, .ok ())

/-- A row that has room for its cell stays as it is. -/
def checkRoom (limit : Nat) (row cell : Bytes) : Except WriterError Bytes :=
  let size := row.length + cell.length
  if limit < size then .error (.encoding (.tooLarge size limit)) else .ok row

/-- A row with its cell behind it. -/
def extendRow (row cell : Bytes) : Except WriterError Bytes := .ok (row ++ cell)

/-- One more cell for every row, and the outcome. -/
def extendRows (p : PendingBatch) (cells : List Bytes) (limit : Nat) :
    PendingBatch × Except WriterError Unit :=
  match visitRows (checkRoom limit) p.batch.rows cells with
  | (rows, .error e) => ({ p with batch := ⟨rows⟩ }, .error e)
  | (rows, .ok ()) =>
    let (rows, result) := visitRows extendRow rows cells
    ({ p with batch := ⟨rows⟩ }, result)

/-- Conversion has come to its end. -/
def complete (p : PendingBatch) : PendingBatch :=
  if p.isOpen then { p with state := .complete } else p

/-- Conversion has failed. -/
def fail (p : PendingBatch) : PendingBatch := { p with state := .failed }

/-- Offers the batch to a sink, if it is complete. -/
def deliver (p : PendingBatch) (sink : Sink) : Except WriterError BatchState × Sink :=
  if p.state = .complete then
    match sink.offer p.batch with
    | (none, sink) => (.ok .delivered, sink)
    | (some e, sink) => (.error (.delivery e), sink)
  else (.error (.incompleteBatch p.state), sink)

end PendingBatch

end ResultSet
