import ResultSet.Output.Writer
import ResultSet.Proofs.Output.Conversion

/-!
# Runs of a writer

A writer is called again and again: set up, given tuples or blocks, closed.
`Writer.run` is the writer after a sequence of calls.

* `Writer.Appended` lists the ways in which an append can end.  In all of them a
  batch is offered whole or not at all, and the counter follows the sink.
* `Writer.Coherent` is the invariant: the encoders have the limit of the
  configuration, a writer with encoders has a sink, and the counter is the number of
  rows that the sink took.
* `Writer.Appending` is what both kinds of append have in common: the writer is left
  alone, or a conversion goes on to `Writer.finish`.  What an append keeps is read off
  it once.
* `coherent_step` is the step and `coherent_run` the run; `Writer.SameSetup` and
  `reported_run` say what a run does not change.
* `run_offers_whole` puts all this together.
-/

namespace ResultSet

/-! ## References -/

/-- A reference to a slot of a tuple or to a column of a block. -/
structure Reference where
  position : Nat
  type : SqlType
  /-- the declared number of fractional digits -/
  scale : Int

namespace Reference

/-- The value in the slot. -/
def toRowExpr (ref : Reference) : RowExpr := .slot ref.position ref.type ref.scale

/-- The column at the position. -/
def toColumnExpr (ref : Reference) : ColumnExpr := .column ref.position ref.type ref.scale

theorem failsInConversion (ref : Reference) : ref.toColumnExpr.FailsInConversion := by
  intro block e he
  unfold toColumnExpr ColumnExpr.column at he
  dsimp only at he
  split at he
  · cases he
  · cases he
    exact trivial

end Reference

/-- Output columns that refer to the columns of a block, or to the slots of a
tuple. -/
def OutputExprs.ofReferences (vectorized : Bool) (refs : List Reference) : OutputExprs :=
  if vectorized then .columns (refs.map Reference.toColumnExpr)
  else .rows (refs.map Reference.toRowExpr)

/-- A batch has one row for each of the `rows` source rows, none of them longer than
the limit. -/
def Batch.IsWhole (batch : Batch) (limit rows : Nat) : Prop :=
  batch.length = rows ∧ ∀ row ∈ batch.rows, row.length ≤ limit

/-- A call on a writer. -/
inductive WriterCall where
  | init
  | rows (tuples : List TupleRow)
  | block (block : Block)
  | close

namespace Writer

/-! ## Calls -/

/-- The answer to a call, and the writer after it. -/
def step (w : Writer RowBuffer) : WriterCall → Except WriterError Unit × Writer RowBuffer
  | .init => w.init
  | .rows tuples => w.appendRows tuples
  | .block block => ((w.appendBlock block).1, (w.appendBlock block).2.1)
  | .close => w.close

/-- The writer after a sequence of calls. -/
def run (w : Writer RowBuffer) (calls : List WriterCall) : Writer RowBuffer :=
  calls.foldl (fun w c => (w.step c).2) w

theorem run_cons (w : Writer RowBuffer) (c : WriterCall) (calls : List WriterCall) :
    w.run (c :: calls) = (w.step c).2.run calls := rfl

theorem run_append (w : Writer RowBuffer) (before after : List WriterCall) :
    w.run (before ++ after) = (w.run before).run after := by
  rw [run, List.foldl_append]
  rfl

/-- What the sink was offered so far, nothing without a sink. -/
def offers (w : Writer RowBuffer) : List Offer :=
  match w.sink with
  | none => []
  | some sink => sink.offers

/-- The rows of the batches that the sink took. -/
def takenRows (w : Writer RowBuffer) : List Bytes :=
  match w.sink with
  | none => []
  | some sink => sink.accepted.flatMap Batch.rows

theorem takenRows_eq (w : Writer RowBuffer) :
    w.takenRows =
      ((w.offers.filter fun o => o.refusal.isNone).map (·.batch)).flatMap Batch.rows := by
  unfold takenRows offers
  cases w.sink <;> rfl

/-! ## Ways to end an append -/

/-- How an append of `rows` source rows can end, given the writer before and after
it and the answer. -/
inductive Appended (w w' : Writer RowBuffer) (rows : Nat) : Except WriterError Unit → Prop where
  /-- there was nothing to convert -/
  | nothing (hrows : rows = 0) (hsame : w' = w) : Appended w w' rows (.ok ())
  /-- the call does not fit the writer, or the writer is not initialized -/
  | misconfigured {e : ConfigurationError} (hsame : w' = w)
      (hinit : e = .notInitialized → w.encoder = none) :
      Appended w w' rows (.error (.configuration e))
  /-- the conversion failed and nothing was offered -/
  | unconverted {e : WriterError} (hrows : 0 < rows) (he : e.IsConversion)
      (hoffers : w'.offers = w.offers) (hwritten : w'.written = w.written) :
      Appended w w' rows (.error e)
  /-- the sink refused the whole batch -/
  | refused {batch : Batch} {e : SinkError} (hrows : 0 < rows)
      (hbatch : batch.IsWhole w.config.maxRowBytes rows)
      (hoffers : w'.offers = w.offers ++ [⟨batch, some e⟩]) (hwritten : w'.written = w.written) :
      Appended w w' rows (.error (.delivery e))
  /-- the sink took the whole batch -/
  | accepted {batch : Batch} (hrows : 0 < rows)
      (hbatch : batch.IsWhole w.config.maxRowBytes rows)
      (hoffers : w'.offers = w.offers ++ [⟨batch, none⟩])
      (hwritten : w'.written = w.written + rows) :
      Appended w w' rows (.ok ())

/-- An append keeps the counter at the number of rows that the sink took. -/
theorem Appended.written_eq {w w' : Writer RowBuffer} {rows : Nat}
    {result : Except WriterError Unit} (h : w.Appended w' rows result)
    (hwritten : w.written = w.takenRows.length) : w'.written = w'.takenRows.length := by
  cases h with
  | nothing _ hsame =>
    rw [hsame]
    exact hwritten
  | misconfigured hsame _ =>
    rw [hsame]
    exact hwritten
  | unconverted _ _ hoffers hcount =>
    rw [hcount, hwritten, takenRows_eq, takenRows_eq, hoffers]
  | refused _ _ hoffers hcount =>
    rw [hcount, hwritten, takenRows_eq, takenRows_eq, hoffers, List.filter_append,
      List.filter_cons_of_neg (by exact Bool.false_ne_true), List.filter_nil, List.append_nil]
  | @accepted batch _ hbatch hoffers hcount =>
    have hlength : batch.rows.length = rows := hbatch.1
    rw [hcount, hwritten, takenRows_eq, takenRows_eq, hoffers, List.filter_append,
      List.filter_cons_of_pos rfl, List.filter_nil, List.map_append, List.flatMap_append,
      List.length_append, List.map_cons, List.map_nil, List.flatMap_singleton, hlength]

/-! ## The invariant -/

/-- What every call keeps: encoders and the pool have the limit of the configuration,
a writer with encoders has a sink, expressions fail as conversions do, and the counter
is the number of rows that the sink took. -/
structure Coherent (w : Writer RowBuffer) : Prop where
  makes : w.makeEncoder w.config = RowBuffer.empty w.config.maxRowBytes
  encoder_limit : ∀ b ∈ w.encoder, b.limit = w.config.maxRowBytes
  pool_limit : ∀ b ∈ w.pool, b.limit = w.config.maxRowBytes
  has_sink : w.encoder.isSome = true → w.sink.isSome = true
  exprs_fail : ∀ exprs, w.exprs = .columns exprs → ∀ expr ∈ exprs, expr.FailsInConversion
  written_eq : w.written = w.takenRows.length

theorem coherent_forText (refuse : Option (List Offer → Batch → Option SinkError))
    (vectorized : Bool) (refs : List Reference) (config : WriterConfig) :
    (forText (refuse.map Sink.new) (.ofReferences vectorized refs) config).Coherent where
  makes := rfl
  encoder_limit b hb := by cases hb
  pool_limit b hb := by cases hb
  has_sink h := by cases h
  exprs_fail exprs hexprs expr hexpr := by
    cases vectorized with
    | false => cases hexprs
    | true =>
      cases hexprs
      obtain ⟨ref, _, rfl⟩ := List.mem_map.1 hexpr
      exact ref.failsInConversion
  written_eq := by
    cases refuse <;> rfl

/-- A conversion that failed is handed on.  Only one that broke off leaves the last state as it
was. -/
theorem finish_error {E : Type} (w : Writer E) (pending : PendingBatch) (e : WriterError) :
    w.finish pending (.error e) =
      (.error e, { w with lastState := if e.isPanic then w.lastState else .failed }) := by
  rw [finish]
  split
  · rfl
  · rfl

/-- Offering a converted batch touches the sink, the counter and the last state only,
and it keeps how the sink answers. -/
theorem finish_frame {E : Type} (w : Writer E) (pending : PendingBatch)
    (converted : Except WriterError Unit) :
    ∃ sink state written, (w.finish pending converted).2 =
        { w with sink := sink, lastState := state, written := written } ∧
      sink.map Sink.refuse = w.sink.map Sink.refuse := by
  cases converted with
  | error e =>
    rw [finish_error]
    exact ⟨w.sink, _, w.written, rfl, rfl⟩
  | ok _ =>
    unfold finish
    cases hsink : w.sink with
    | none =>
      refine ⟨none, w.lastState, w.written, ?_, rfl⟩
      show w = { w with sink := none, lastState := w.lastState, written := w.written }
      rw [← hsink]
    | some sink =>
      have hrefuse : (pending.deliver sink).2.refuse = sink.refuse := by
        unfold PendingBatch.deliver Sink.offer
        by_cases hstate : pending.state = .complete
        · rw [if_pos hstate]
          dsimp only
          cases sink.refuse sink.offers pending.batch <;> rfl
        · rw [if_neg hstate]
      dsimp only
      cases hdeliver : pending.deliver sink with
      | mk answer after =>
        rw [hdeliver] at hrefuse
        cases answer with
        | ok state =>
          exact ⟨some after, state, w.written + pending.length, rfl, congrArg some hrefuse⟩
        | error e => exact ⟨some after, .failed, w.written, rfl, congrArg some hrefuse⟩

/-- A conversion is followed by an offer of its whole batch, or it failed and nothing
is offered. -/
theorem finish_appended {base w : Writer RowBuffer} {rows : Nat} {pending : PendingBatch}
    {converted : Except WriterError Unit} (hsink : w.sink = base.sink)
    (hwritten : w.written = base.written) (hset : base.sink.isSome = true) (hrows : 0 < rows)
    (h : Converted base.config.maxRowBytes rows pending converted) :
    base.Appended (w.finish pending converted).2 rows (w.finish pending converted).1 := by
  obtain ⟨sink, hbase⟩ := Option.isSome_iff_exists.1 hset
  have hoffers : base.offers = sink.offers := by rw [offers, hbase]
  cases converted with
  | error e =>
    rw [finish_error]
    refine .unconverted hrows (h.error e rfl) ?_ hwritten
    show w.offers = base.offers
    rw [offers, offers, hsink]
  | ok _ =>
    unfold finish
    have hwhole : pending.batch.IsWhole base.config.maxRowBytes rows :=
      ⟨h.length_eq rfl, h.within rfl⟩
    have hlength : pending.length = rows := h.length_eq rfl
    rw [hsink, hbase]
    dsimp only
    unfold PendingBatch.deliver Sink.offer
    rw [if_pos (h.complete rfl)]
    dsimp only
    cases hrefuse : sink.refuse sink.offers pending.batch with
    | none =>
      refine .accepted hrows hwhole ?_ ?_
      · rw [hoffers]
        rfl
      · show w.written + pending.length = base.written + rows
        rw [hwritten, hlength]
    | some e =>
      refine .refused hrows hwhole ?_ hwritten
      rw [hoffers]
      rfl

/-! ## One call -/

/-- An append answers at once and leaves the writer alone, or it converts with its
encoders and goes on to an offer. -/
inductive Appending (w : Writer RowBuffer) (rows : Nat) :
    Except WriterError Unit × Writer RowBuffer → Prop where
  | nothing (hrows : rows = 0) : Appending w rows (.ok (), w)
  | misconfigured {e : ConfigurationError} (hinit : e = .notInitialized → w.encoder = none) :
      Appending w rows (.error (.configuration e), w)
  | finished {encoder : RowBuffer} {pool : List RowBuffer} {pending : PendingBatch}
      {converted : Except WriterError Unit} (hrows : 0 < rows)
      (hinit : w.encoder.isSome = true) (hencoder : encoder.limit = w.config.maxRowBytes)
      (hpool : ∀ b ∈ pool, b.limit = w.config.maxRowBytes)
      (hconverted : Converted w.config.maxRowBytes rows pending converted) :
      Appending w rows
        ({ w with encoder := some encoder, pool := pool }.finish pending converted)

/-- Tuples are converted by the encoder of the writer. -/
theorem appendRows_eq {E : Type} [RowEncoder E] {w : Writer E} {exprs : List RowExpr}
    {encoder : E} {tuples : List TupleRow} (hexprs : w.exprs = .rows exprs)
    (hencoder : w.encoder = some encoder) (htuples : tuples ≠ []) :
    w.appendRows tuples =
      let converted := convertRows exprs 0 tuples encoder PendingBatch.new
      { w with encoder := some converted.1 }.finish converted.2.1 converted.2.2 := by
  obtain ⟨tuple, tuples, rfl⟩ := List.exists_cons_of_ne_nil htuples
  cases w
  cases hexprs
  cases hencoder
  rfl

/-- A block is converted by the first encoders of the pool. -/
theorem appendBlock_eq {E : Type} [RowEncoder E] {w : Writer E} {exprs : List ColumnExpr}
    {encoder : E} {block : Block} (hexprs : w.exprs = .columns exprs)
    (hencoder : w.encoder = some encoder) (hrows : block.rows ≠ 0) :
    ((w.appendBlock block).1, (w.appendBlock block).2.1) =
      let converted := convertBlock exprs block w.config.maxRowBytes
        ((w.grownPool block.rows).take block.rows) (PendingBatch.withRows block.rows)
      { w with pool := converted.2.1 ++ (w.grownPool block.rows).drop block.rows }.finish
        converted.2.2.1 converted.2.2.2 := by
  cases w
  cases hexprs
  cases hencoder
  unfold appendBlock
  dsimp only
  rw [if_neg hrows]

theorem appending_rows {w : Writer RowBuffer} (hw : w.Coherent) (tuples : List TupleRow) :
    w.Appending tuples.length (w.appendRows tuples) := by
  cases hexprs : w.exprs with
  | columns exprs =>
    rw [appendRows, hexprs]
    exact .misconfigured (fun he => by cases he)
  | rows exprs =>
    cases hencoder : w.encoder with
    | none =>
      rw [appendRows, hexprs, hencoder]
      exact .misconfigured (fun _ => hencoder)
    | some encoder =>
      cases tuples with
      | nil =>
        rw [appendRows, hexprs, hencoder]
        exact .nothing rfl
      | cons tuple tuples =>
        have hlimit : encoder.limit = w.config.maxRowBytes := hw.encoder_limit encoder hencoder
        have hafter := convertRows_limit exprs 0 (tuple :: tuples) encoder .new
        have hconverted := convertRows_converted exprs 0 (tuple :: tuples) encoder .new rfl
          (fun row hrow => absurd hrow List.not_mem_nil)
        rw [hlimit, show PendingBatch.new.length = 0 from rfl, Nat.zero_add] at hconverted
        rw [appendRows_eq hexprs hencoder (List.cons_ne_nil _ _)]
        exact .finished (Nat.succ_pos _) (by rw [hencoder]; rfl) (hafter.trans hlimit)
          hw.pool_limit hconverted

theorem grownPool_limit {w : Writer RowBuffer} (hw : w.Coherent) (rows : Nat) :
    ∀ b ∈ w.grownPool rows, b.limit = w.config.maxRowBytes := by
  intro b hb
  rcases List.mem_append.1 hb with hold | hnew
  · exact hw.pool_limit b hold
  · rw [(List.mem_replicate.1 hnew).2, hw.makes]
    rfl

theorem appending_block {w : Writer RowBuffer} (hw : w.Coherent) (block : Block) :
    w.Appending block.rows ((w.appendBlock block).1, (w.appendBlock block).2.1) := by
  cases hexprs : w.exprs with
  | rows exprs =>
    rw [appendBlock, hexprs]
    exact .misconfigured (fun he => by cases he)
  | columns exprs =>
    cases hencoder : w.encoder with
    | none =>
      rw [appendBlock, hexprs, hencoder]
      exact .misconfigured (fun _ => hencoder)
    | some encoder =>
      by_cases hrows : block.rows = 0
      · have hnothing : w.appendBlock block = (.ok (), w, block) := by
          rw [appendBlock, hexprs, hencoder]
          exact if_pos hrows
        rw [hnothing]
        exact .nothing hrows
      · have hpool := grownPool_limit hw block.rows
        have htaken : ∀ b ∈ (w.grownPool block.rows).take block.rows,
            b.limit = w.config.maxRowBytes := fun b hb => hpool b (List.mem_of_mem_take hb)
        obtain ⟨hlimits, _, hconverted⟩ := convertBlock_keeps (hw.exprs_fail exprs hexprs) block
          w.config.maxRowBytes block.rows htaken
        have hafter : ∀ b ∈ (convertBlock exprs block w.config.maxRowBytes
            ((w.grownPool block.rows).take block.rows) (PendingBatch.withRows block.rows)).2.1 ++
            (w.grownPool block.rows).drop block.rows, b.limit = w.config.maxRowBytes := by
          intro b hb
          rcases List.mem_append.1 hb with hused | hrest
          · exact hlimits b hused
          · exact hpool b (List.mem_of_mem_drop hrest)
        rw [appendBlock_eq hexprs hencoder hrows]
        have hset := Appending.finished (w := w) (Nat.pos_of_ne_zero hrows)
          (by rw [hencoder]; rfl) (hw.encoder_limit encoder hencoder) hafter hconverted
        rw [← hencoder] at hset
        exact hset

/-- What no call changes: the expressions, the configuration, how the sink answers, and
that a writer is initialized. -/
structure SameSetup (w w' : Writer RowBuffer) : Prop where
  exprs_eq : w'.exprs = w.exprs
  config_eq : w'.config = w.config
  makeEncoder_eq : w'.makeEncoder = w.makeEncoder
  refuse_eq : w'.sink.map Sink.refuse = w.sink.map Sink.refuse
  initialized : w.encoder.isSome = true → w'.encoder.isSome = true

theorem SameSetup.refl (w : Writer RowBuffer) : w.SameSetup w := ⟨rfl, rfl, rfl, rfl, id⟩

theorem SameSetup.trans {w₁ w₂ w₃ : Writer RowBuffer} (h : w₁.SameSetup w₂)
    (h' : w₂.SameSetup w₃) : w₁.SameSetup w₃ where
  exprs_eq := h'.exprs_eq.trans h.exprs_eq
  config_eq := h'.config_eq.trans h.config_eq
  makeEncoder_eq := h'.makeEncoder_eq.trans h.makeEncoder_eq
  refuse_eq := h'.refuse_eq.trans h.refuse_eq
  initialized hinit := h'.initialized (h.initialized hinit)

theorem SameSetup.sink_isSome {w w' : Writer RowBuffer} (h : w.SameSetup w') :
    w'.sink.isSome = w.sink.isSome := by
  rw [← Option.isSome_map (f := Sink.refuse), h.refuse_eq, Option.isSome_map]

section Appending

variable {w : Writer RowBuffer} {rows : Nat} {after : Except WriterError Unit × Writer RowBuffer}

theorem Appending.sameSetup (h : w.Appending rows after) : w.SameSetup after.2 := by
  cases h with
  | nothing _ => exact .refl w
  | misconfigured _ => exact .refl w
  | @finished encoder pool pending converted =>
    obtain ⟨sink, state, written, hfinish, hrefuse⟩ :=
      finish_frame { w with encoder := some encoder, pool := pool } pending converted
    rw [hfinish]
    exact ⟨rfl, rfl, rfl, hrefuse, fun _ => rfl⟩

/-- An append leaves alone what `close` reports. -/
theorem Appending.reported_eq (h : w.Appending rows after) :
    after.2.reported = w.reported ∧ after.2.closed = w.closed := by
  cases h with
  | nothing _ => exact ⟨rfl, rfl⟩
  | misconfigured _ => exact ⟨rfl, rfl⟩
  | @finished encoder pool pending converted =>
    obtain ⟨sink, state, written, hfinish, _⟩ :=
      finish_frame { w with encoder := some encoder, pool := pool } pending converted
    rw [hfinish]
    exact ⟨rfl, rfl⟩

theorem Appending.appended (hw : w.Coherent) (h : w.Appending rows after) :
    w.Appended after.2 rows after.1 := by
  cases h with
  | nothing hrows => exact .nothing hrows rfl
  | misconfigured hinit => exact .misconfigured rfl hinit
  | finished hrows hinit _ _ hconverted =>
    exact finish_appended rfl rfl (hw.has_sink hinit) hrows hconverted

theorem Appending.coherent (hw : w.Coherent) (h : w.Appending rows after) :
    after.2.Coherent := by
  have hwritten := (h.appended hw).written_eq hw.written_eq
  have hsetup := h.sameSetup
  cases h with
  | nothing _ => exact hw
  | misconfigured _ => exact hw
  | @finished encoder pool pending converted _ hinit hencoder hpool _ =>
    obtain ⟨sink, state, written, hfinish, _⟩ :=
      finish_frame { w with encoder := some encoder, pool := pool } pending converted
    have hsink := hsetup.sink_isSome
    rw [hfinish] at hwritten hsink ⊢
    refine ⟨hw.makes, fun b hb => ?_, hpool, fun _ => ?_, hw.exprs_fail, hwritten⟩
    · cases hb
      exact hencoder
    · rw [hsink]
      exact hw.has_sink hinit

end Appending

/-- Set-up makes fresh encoders, or fails and changes nothing. -/
theorem init_cases {E : Type} (w : Writer E) :
    (w.init.2 = w ∧ (w.sink.isNone = true ∨ w.config.batchSize = 0)) ∨
      (w.sink.isSome = true ∧ ∃ pool, w.init.2 =
          { w with encoder := some (w.makeEncoder w.config), pool := pool } ∧
        ∀ b ∈ pool, b = w.makeEncoder w.config ∨ b ∈ w.pool) := by
  unfold init
  cases hsink : w.sink with
  | none => exact Or.inl ⟨rfl, Or.inl rfl⟩
  | some sink =>
    by_cases hsize : w.config.batchSize = 0
    · rw [if_neg (by exact Bool.false_ne_true), if_pos hsize]
      exact Or.inl ⟨rfl, Or.inr hsize⟩
    · rw [if_neg (by exact Bool.false_ne_true), if_neg hsize]
      refine Or.inr ⟨rfl, _, rfl, fun b hb => ?_⟩
      by_cases hvectorized : w.exprs.isVectorized = true
      · rw [if_pos hvectorized] at hb
        exact Or.inl (List.mem_replicate.1 hb).2
      · rw [if_neg hvectorized] at hb
        exact Or.inr hb

/-- `close` takes over the counter, and changes nothing when nothing was written since
the last time. -/
theorem close_eq {E : Type} (w : Writer E) :
    w.close = (.ok (), { w with reported := w.written, closed := true }) ∧
      (w.closed = true → w.reported = w.written → w.close = (.ok (), w)) := by
  have hsame : w.closed = true → w.reported = w.written →
      { w with reported := w.written, closed := true } = w := by
    intro hclosed hreported
    cases w
    cases hclosed
    cases hreported
    rfl
  have hclose : w.close = (.ok (), { w with reported := w.written, closed := true }) := by
    unfold close
    by_cases hcond : (w.closed && w.reported == w.written) = true
    · rw [if_pos hcond]
      obtain ⟨hclosed, hreported⟩ := Bool.and_eq_true_iff.1 hcond
      rw [hsame hclosed (beq_iff_eq.1 hreported)]
    · rw [if_neg hcond]
  refine ⟨hclose, fun hclosed hreported => ?_⟩
  rw [hclose, hsame hclosed hreported]

theorem sameSetup_step {w : Writer RowBuffer} (hw : w.Coherent) (c : WriterCall) :
    w.SameSetup (w.step c).2 := by
  cases c with
  | init =>
    show w.SameSetup w.init.2
    rcases init_cases w with ⟨hsame, _⟩ | ⟨_, pool, hset, _⟩
    · rw [hsame]
      exact .refl w
    · rw [hset]
      exact ⟨rfl, rfl, rfl, rfl, fun _ => rfl⟩
  | rows tuples => exact (appending_rows hw tuples).sameSetup
  | block block => exact (appending_block hw block).sameSetup
  | close =>
    show w.SameSetup w.close.2
    rw [(close_eq w).1]
    exact ⟨rfl, rfl, rfl, rfl, id⟩

theorem coherent_step {w : Writer RowBuffer} (hw : w.Coherent) (c : WriterCall) :
    (w.step c).2.Coherent := by
  cases c with
  | init =>
    show w.init.2.Coherent
    rcases init_cases w with ⟨hsame, _⟩ | ⟨hsink, pool, hset, hpool⟩
    · rw [hsame]
      exact hw
    · have hfresh : (w.makeEncoder w.config).limit = w.config.maxRowBytes := by
        rw [hw.makes]
        rfl
      rw [hset]
      refine ⟨hw.makes, fun b hb => ?_, fun b hb => ?_, fun _ => hsink, hw.exprs_fail,
        hw.written_eq⟩
      · cases hb
        exact hfresh
      · rcases hpool b hb with hnew | hold
        · rw [hnew]
          exact hfresh
        · exact hw.pool_limit b hold
  | rows tuples => exact (appending_rows hw tuples).coherent hw
  | block block => exact (appending_block hw block).coherent hw
  | close =>
    show w.close.2.Coherent
    rw [(close_eq w).1]
    exact ⟨hw.makes, hw.encoder_limit, hw.pool_limit, hw.has_sink, hw.exprs_fail, hw.written_eq⟩

/-- Set-up and `close` neither offer anything nor count. -/
theorem step_of_not_append {w : Writer RowBuffer} {c : WriterCall}
    (h : c = .init ∨ c = .close) :
    (w.step c).2.offers = w.offers ∧ (w.step c).2.written = w.written := by
  rcases h with rfl | rfl
  · show w.init.2.offers = w.offers ∧ w.init.2.written = w.written
    rcases init_cases w with ⟨hsame, _⟩ | ⟨_, pool, hset, _⟩
    · rw [hsame]
      exact ⟨rfl, rfl⟩
    · rw [hset]
      exact ⟨rfl, rfl⟩
  · show w.close.2.offers = w.offers ∧ w.close.2.written = w.written
    rw [(close_eq w).1]
    exact ⟨rfl, rfl⟩

/-- Only `close` changes what is reported. -/
theorem reported_step {w : Writer RowBuffer} (hw : w.Coherent) {c : WriterCall}
    (hc : c ≠ .close) :
    (w.step c).2.reported = w.reported ∧ (w.step c).2.closed = w.closed := by
  cases c with
  | init =>
    show w.init.2.reported = w.reported ∧ w.init.2.closed = w.closed
    rcases init_cases w with ⟨hsame, _⟩ | ⟨_, pool, hset, _⟩
    · rw [hsame]
      exact ⟨rfl, rfl⟩
    · rw [hset]
      exact ⟨rfl, rfl⟩
  | rows tuples => exact (appending_rows hw tuples).reported_eq
  | block block => exact (appending_block hw block).reported_eq
  | close => exact absurd rfl hc

/-! ## Runs -/

theorem coherent_run {w : Writer RowBuffer} (hw : w.Coherent) (calls : List WriterCall) :
    (w.run calls).Coherent := by
  induction calls generalizing w with
  | nil => exact hw
  | cons c calls ih => exact ih (coherent_step hw c)

theorem sameSetup_run {w : Writer RowBuffer} (hw : w.Coherent) (calls : List WriterCall) :
    w.SameSetup (w.run calls) := by
  induction calls generalizing w with
  | nil => exact .refl w
  | cons c calls ih => exact (sameSetup_step hw c).trans (ih (coherent_step hw c))

theorem reported_run {w : Writer RowBuffer} (hw : w.Coherent) {calls : List WriterCall}
    (hcalls : .close ∉ calls) :
    (w.run calls).reported = w.reported ∧ (w.run calls).closed = w.closed := by
  induction calls generalizing w with
  | nil => exact ⟨rfl, rfl⟩
  | cons c calls ih =>
    have hstep := reported_step hw (fun hc => hcalls (hc ▸ List.mem_cons_self))
    have hrest := ih (coherent_step hw c) (fun hc => hcalls (List.mem_cons_of_mem _ hc))
    exact ⟨hrest.1.trans hstep.1, hrest.2.trans hstep.2⟩

/-- Once set up with a sink and a batch size, a writer is initialized for good. -/
theorem initialized_run {w : Writer RowBuffer} (hw : w.Coherent)
    (hsink : w.sink.isSome = true) (hsize : 0 < w.config.batchSize) {calls : List WriterCall}
    (hcalls : .init ∈ calls) : (w.run calls).encoder.isSome = true := by
  obtain ⟨before, after, rfl⟩ := List.append_of_mem hcalls
  have hbefore := sameSetup_run hw before
  have hset : ((w.run before).step .init).2.encoder.isSome = true := by
    show (w.run before).init.2.encoder.isSome = true
    rcases init_cases (w.run before) with ⟨_, hnone | hzero⟩ | ⟨_, pool, hset, _⟩
    · rw [← Option.not_isSome, hbefore.sink_isSome, hsink] at hnone
      cases hnone
    · rw [hbefore.config_eq] at hzero
      omega
    · rw [hset]
      rfl
  rw [run_append, run_cons]
  exact (sameSetup_run (coherent_step (coherent_run hw before) .init) after).initialized hset

/-- After any sequence of calls, and whatever the sink does, the counter is the number
of rows that the sink took.  The next append offers one batch with every source row,
all of them within the limit, or it offers nothing; only a batch that is taken counts.
Set-up and `close` offer nothing.  What is reported is the counter at the last
`close`, and closing again without new rows changes nothing. -/
theorem run_offers_whole (refuse : Option (List Offer → Batch → Option SinkError))
    (vectorized : Bool) (refs : List Reference) (config : WriterConfig)
    (calls : List WriterCall) :
    let start := forText (refuse.map Sink.new) (.ofReferences vectorized refs) config
    let w := start.run calls
    w.config = config ∧ w.written = w.takenRows.length ∧
      (∀ tuples, w.Appended (w.step (.rows tuples)).2 tuples.length
        (w.step (.rows tuples)).1) ∧
      (∀ block, w.Appended (w.step (.block block)).2 block.rows (w.step (.block block)).1) ∧
      (∀ c, c = .init ∨ c = .close →
        (w.step c).2.offers = w.offers ∧ (w.step c).2.written = w.written) ∧
      (.close ∉ calls → w.reported = 0) ∧
      ∀ before after, calls = before ++ .close :: after → .close ∉ after →
        w.reported = (start.run before).written ∧
          (w.reported = w.written → w.step .close = (.ok (), w)) := by
  intro start w
  have hstart : start.Coherent := coherent_forText refuse vectorized refs config
  have hw : w.Coherent := coherent_run hstart calls
  refine ⟨(sameSetup_run hstart calls).config_eq, hw.written_eq,
    fun tuples => (appending_rows hw tuples).appended hw,
    fun block => (appending_block hw block).appended hw, fun c hc => step_of_not_append hc,
    fun hcalls => (reported_run hstart hcalls).1, fun before after hsplit hafter => ?_⟩
  have hbefore : (start.run before).Coherent := coherent_run hstart before
  have hreported := reported_run (coherent_step hbefore .close) hafter
  have hclose : ((start.run before).step .close).2 = { start.run before with
      reported := (start.run before).written, closed := true } :=
    congrArg Prod.snd (close_eq (start.run before)).1
  rw [← run_cons, ← run_append, ← hsplit, hclose] at hreported
  exact ⟨hreported.1, (close_eq w).2 hreported.2⟩

end Writer

end ResultSet
