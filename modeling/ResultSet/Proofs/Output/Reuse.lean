import ResultSet.Output.Convert
import ResultSet.Proofs.Row.Cell
import ResultSet.Row.Trace

/-!
# Encoders used again

The encoders of a conversion were used before, and are left as they are when it fails.
What is left in them does not matter, since an encoder is reset in front of every row and
of every cell that it writes.

* `LawfulRowEncoder` says what is asked of an encoder: a reset leaves nothing of its row.
  `RowBuffer` and `RowTrace` are lawful.
* A conversion keeps what a reset makes of its encoders, also one that fails halfway:
  `reset_convertRows`, `reset_convertBlock`.
* Conversions with encoders that a reset makes the same give the same batch and the same
  answer: `convertRows_eq_of_reset`, `convertBlock_eq_of_reset`.  A column that was pushed
  to all rows leaves the very same encoders behind (`pushColumn_eq_of_reset`), so what is
  appended to the rows was written by this column.
-/

namespace ResultSet

open RowEncoder (reset)

/-! ## Encoders -/

/-- A reset clears the row of an encoder: nothing is left of what was pushed. -/
class LawfulRowEncoder (E : Type) [RowEncoder E] : Prop where
  reset_reset (e : E) : reset (reset e) = reset e
  reset_push {v : WireValue} {e e' : E} (h : RowEncoder.push v e = .ok e') :
    reset e' = reset e

instance : LawfulRowEncoder RowBuffer where
  reset_reset _ := rfl
  reset_push {v e e'} h := by
    have hpush : RowEncoder.push v e = _ := RowBuffer.push_eq e v
    rw [hpush] at h
    split at h
    · cases h
      rfl
    · cases h

instance : LawfulRowEncoder RowTrace where
  reset_reset _ := rfl
  reset_push {v e e'} h := by
    have hpush : RowTrace.push v e = .ok e' := h
    unfold RowTrace.push at hpush
    split at hpush
    · cases hpush
    · cases hpush
      rfl

section Conversion

variable {E : Type} [RowEncoder E] [LawfulRowEncoder E]

open LawfulRowEncoder (reset_reset reset_push)

/-! ## Conversions keep what a reset gives -/

theorem reset_pushValue (e : E) (v : WireValue) : reset (pushValue e v).1 = reset e := by
  unfold pushValue
  cases hpush : RowEncoder.push v e with
  | error _ => rfl
  | ok e' => exact reset_push hpush

theorem reset_pushCell (e : E) (cell : WireCell) : reset (pushCell e cell).1 = reset e := by
  cases cell with
  | error _ => rfl
  | ok v => exact reset_pushValue e v

theorem reset_pushRow (e : E) (row : TupleRow) (exprs : List RowExpr) :
    reset (pushRow e row exprs).1 = reset e := by
  induction exprs generalizing e with
  | nil => rfl
  | cons expr exprs ih =>
    have hcell := reset_pushCell e (expr.toWire row)
    rw [pushRow]
    cases hpush : pushCell e (expr.toWire row) with
    | mk e' result =>
      rw [hpush] at hcell
      cases result with
      | error _ => exact hcell
      | ok _ => exact (ih e').trans hcell

theorem reset_convertRows (exprs : List RowExpr) (index : Nat) (rows : List TupleRow) (e : E)
    (pending : PendingBatch) : reset (convertRows exprs index rows e pending).1 = reset e := by
  induction rows generalizing index e pending with
  | nil => rfl
  | cons row rows ih =>
    have hrow := (reset_pushRow (reset e) row exprs).trans (reset_reset e)
    rw [convertRows]
    cases hpush : pushRow (reset e) row exprs with
    | mk e' result =>
      rw [hpush] at hrow
      cases result with
      | error _ => exact hrow
      | ok _ => exact (ih _ e' _).trans hrow

theorem reset_pushColumn (column row : Nat) (cells : List WireCell) (encoders : List E) :
    (pushColumn column row cells encoders).1.map reset = encoders.map reset := by
  induction encoders generalizing row cells with
  | nil => cases cells <;> rfl
  | cons e encoders ih =>
    cases cells with
    | nil =>
      show reset (reset e) :: _ = _
      rw [reset_reset, List.map_cons]
    | cons cell cells =>
      have hcell := (reset_pushCell (reset e) cell).trans (reset_reset e)
      rw [pushColumn]
      cases hpush : pushCell (reset e) cell with
      | mk e' result =>
        rw [hpush] at hcell
        cases result with
        | error _ => exact congrArg (· :: _) hcell
        | ok _ =>
          show reset e' :: (pushColumn column (row + 1) cells encoders).1.map reset = _
          rw [hcell, ih, List.map_cons]

theorem reset_convertColumns (block : Block) (limit index : Nat)
    (exprs : List (ColumnExpr × Nat)) (encoders : List E) (pending : PendingBatch) :
    (convertColumns block limit index exprs encoders pending).1.map reset =
      encoders.map reset := by
  induction exprs generalizing index encoders pending with
  | nil => rfl
  | cons first exprs ih =>
    obtain ⟨expr, position⟩ := first
    rw [convertColumns]
    cases block.column? position with
    | none => rfl
    | some c =>
      dsimp only
      cases c.column.toWire index expr.type expr.scale encoders.length with
      | error _ => rfl
      | ok cells =>
        have hcolumn := reset_pushColumn index 0 cells encoders
        dsimp only
        cases hpush : pushColumn index 0 cells encoders with
        | mk encoders' result =>
          rw [hpush] at hcolumn
          cases result with
          | error _ => exact hcolumn
          | ok _ =>
            dsimp only
            cases (pending.begin index).appendColumn (encoders'.map RowEncoder.row) limit with
            | error _ => exact hcolumn
            | ok pending => exact (ih _ encoders' pending).trans hcolumn

theorem reset_convertBlock (exprs : List ColumnExpr) (block : Block) (limit : Nat)
    (encoders : List E) (pending : PendingBatch) :
    (convertBlock exprs block limit encoders pending).2.1.map reset = encoders.map reset := by
  unfold convertBlock
  cases ColumnExpr.executeAll exprs block with
  | mk block result =>
    cases result with
    | error _ => rfl
    | ok positions => exact reset_convertColumns _ _ _ _ _ _

end Conversion

section TwoRuns

variable {E : Type} [RowEncoder E]

/-! ## Conversions with different encoders -/

/-- The encoder of a row is reset in front of every cell.  A column that fails leaves the
encoders behind it as they were, so only one that succeeds makes all of them the same. -/
theorem pushColumn_eq_of_reset (column row : Nat) (cells : List WireCell)
    {encoders encoders' : List E} (h : encoders.map reset = encoders'.map reset) :
    (pushColumn column row cells encoders).2 = (pushColumn column row cells encoders').2 ∧
      ((pushColumn column row cells encoders).2 = .ok () →
        pushColumn column row cells encoders = pushColumn column row cells encoders') := by
  induction encoders generalizing encoders' row cells with
  | nil =>
    rw [List.map_nil] at h
    rw [List.map_eq_nil_iff.1 h.symm]
    exact ⟨rfl, fun _ => rfl⟩
  | cons e encoders ih =>
    cases encoders' with
    | nil => cases h
    | cons e' encoders' =>
      obtain ⟨hfirst, hrest⟩ := List.cons.inj h
      cases cells with
      | nil => exact ⟨rfl, fun hok => by cases hok⟩
      | cons cell cells =>
        obtain ⟨hresult, hall⟩ := ih (row + 1) cells hrest
        rw [pushColumn, pushColumn, hfirst]
        cases pushCell (reset e') cell with
        | mk e result =>
          cases result with
          | error _ => exact ⟨rfl, fun hok => by cases hok⟩
          | ok _ =>
            dsimp only
            refine ⟨hresult, fun hok => ?_⟩
            rw [hall hok]

/-- What is appended to the rows of a batch was written by the same column. -/
theorem convertColumns_eq_of_reset (block : Block) (limit index : Nat)
    (exprs : List (ColumnExpr × Nat)) {encoders encoders' : List E}
    (h : encoders.map reset = encoders'.map reset) (pending : PendingBatch) :
    (convertColumns block limit index exprs encoders pending).2 =
      (convertColumns block limit index exprs encoders' pending).2 := by
  have hlength : encoders.length = encoders'.length := by
    rw [← List.length_map (f := reset), h, List.length_map]
  -- No induction is needed: behind the first column the encoders are the same ones.
  cases exprs with
  | nil => rfl
  | cons first exprs =>
    obtain ⟨expr, position⟩ := first
    rw [convertColumns, convertColumns, hlength]
    cases block.column? position with
    | none => rfl
    | some c =>
      dsimp only
      cases c.column.toWire index expr.type expr.scale encoders'.length with
      | error _ => rfl
      | ok cells =>
        obtain ⟨hresult, hall⟩ := pushColumn_eq_of_reset index 0 cells h
        dsimp only
        cases hpush : pushColumn index 0 cells encoders with
        | mk written result =>
          rw [hpush] at hresult hall
          cases result with
          | ok _ => rw [← hall rfl]
          | error e =>
            cases hpush' : pushColumn index 0 cells encoders' with
            | mk written' result' =>
              rw [hpush'] at hresult
              cases hresult
              rfl

theorem convertBlock_eq_of_reset (exprs : List ColumnExpr) (block : Block) (limit : Nat)
    {encoders encoders' : List E} (h : encoders.map reset = encoders'.map reset)
    (pending : PendingBatch) :
    (convertBlock exprs block limit encoders pending).2.2 =
      (convertBlock exprs block limit encoders' pending).2.2 := by
  unfold convertBlock
  cases ColumnExpr.executeAll exprs block with
  | mk block result =>
    cases result with
    | error _ => rfl
    | ok positions => exact convertColumns_eq_of_reset _ _ _ _ h _

end TwoRuns

end ResultSet
