import ResultSet.Output.Config
import ResultSet.Output.Convert

/-!
# Result writers

A `Writer` converts one batch after the other and offers each to its sink.

* A batch is offered whole, once its conversion has succeeded, or not at all.
* `written` counts the rows of the batches that the sink took; `reported` is what
  it was at the last `close`.
* The encoders are made by `init` and used again for every batch.
-/

namespace ResultSet

/-- A writer of result batches. -/
structure Writer (E : Type) where
  sink : Option Sink
  exprs : OutputExprs
  config : WriterConfig
  /-- makes an encoder -/
  makeEncoder : WriterConfig → E
  /-- the encoder of tuples, once the writer is initialized -/
  encoder : Option E
  /-- the encoders of the rows of a block -/
  pool : List E
  written : Nat
  reported : Nat
  closed : Bool
  lastState : BatchState

namespace Writer

variable {E : Type}

/-- A writer that is not initialized yet. -/
def new (sink : Option Sink) (exprs : OutputExprs) (config : WriterConfig)
    (makeEncoder : WriterConfig → E) : Writer E :=
  ⟨sink, exprs, config, makeEncoder, none, [], 0, 0, false, .empty⟩

/-- A writer of rows for the text protocol. -/
def forText (sink : Option Sink) (exprs : OutputExprs) (config : WriterConfig) :
    Writer RowBuffer :=
  new sink exprs config fun config => RowBuffer.empty config.maxRowBytes

/-- Makes the encoders, if the writer has a sink and a batch size. -/
def init (w : Writer E) : Except WriterError Unit × Writer E :=
  if w.sink.isNone then (.error (.configuration .sinkMissing), w)
  else if w.config.batchSize = 0 then (.error (.configuration .batchSizeZero), w)
  else
    let pool :=
      if w.exprs.isVectorized then List.replicate w.config.batchSize (w.makeEncoder w.config)
      else w.pool
    (.ok (), { w with encoder := some (w.makeEncoder w.config), pool := pool })

/-- Offers a converted batch to the sink, or records that its conversion failed.  A conversion
that broke off is not recorded. -/
def finish (w : Writer E) (pending : PendingBatch) (converted : Except WriterError Unit) :
    Except WriterError Unit × Writer E :=
  match converted with
  | .error e =>
    if e.isPanic then (.error e, w) else (.error e, { w with lastState := pending.fail.state })
  | .ok () =>
    match w.sink with
    | none => (.error (.configuration .notInitialized), w)
    | some sink =>
      match pending.deliver sink with
      | (.ok state, sink) =>
        (.ok (),
          { w with sink := some sink, lastState := state, written := w.written + pending.length })
      | (.error e, sink) => (.error e, { w with sink := some sink, lastState := .failed })

/-- The encoders, made more until there is one for each row. -/
def grownPool (w : Writer E) (rows : Nat) : List E :=
  w.pool ++ List.replicate (rows - w.pool.length) (w.makeEncoder w.config)

variable [RowEncoder E]

/-- Converts rows of tuples and offers them to the sink. -/
def appendRows (w : Writer E) (rows : List TupleRow) : Except WriterError Unit × Writer E :=
  match w.exprs, w.encoder with
  | .columns _, _ => (.error (.configuration .tuplesForColumns), w)
  | .rows _, none => (.error (.configuration .notInitialized), w)
  | .rows exprs, some encoder =>
    if rows.isEmpty then (.ok (), w)
    else
      let (encoder, pending, converted) := convertRows exprs 0 rows encoder PendingBatch.new
      { w with encoder := some encoder }.finish pending converted

/-- Converts a block and offers its rows to the sink.  The block is answered with
the columns that the expressions added to it. -/
def appendBlock (w : Writer E) (block : Block) : Except WriterError Unit × Writer E × Block :=
  match w.exprs, w.encoder with
  | .rows _, _ => (.error (.configuration .blockForTuples), w, block)
  | .columns _, none => (.error (.configuration .notInitialized), w, block)
  | .columns exprs, some _ =>
    let rows := block.rows
    if rows = 0 then (.ok (), w, block)
    else
      let pool := w.grownPool rows
      let (block, encoders, pending, converted) :=
        convertBlock exprs block w.config.maxRowBytes (pool.take rows)
          (PendingBatch.withRows rows)
      let (result, w) := { w with pool := encoders ++ pool.drop rows }.finish pending converted
      (result, w, block)

/-- Reports the rows written so far.  Closing again without new rows changes
nothing. -/
def close (w : Writer E) : Except WriterError Unit × Writer E :=
  if w.closed && w.reported == w.written then (.ok (), w)
  else (.ok (), { w with reported := w.written, closed := true })

end Writer

end ResultSet
