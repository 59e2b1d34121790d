import ResultSet.Proofs.Column.Blocks
import ResultSet.Proofs.Output.RowWise
import ResultSet.Proofs.Output.Run

/-!
# Blocks written through references

What the conversion of a block comes to when all expressions are references, whatever the
encoders are.

* `executeAll_eq`: the references are executed first, and one behind the last column ends the
  conversion before anything is converted.
* `Block.toWire` is all that the rest asks of a block: the cells of one output column.
  `convertColumns_cons` is one round of the loop over the columns, `convertColumns_cons_of_ok`
  a round that succeeds, and `convertColumns_congr` says that blocks with the same cells are
  converted alike.
-/

namespace ResultSet

/-! ## Execution -/

/-- References answer their own positions, unless one of them is behind the last column. -/
theorem executeAll_eq (refs : List Reference) (b : Block) :
    ColumnExpr.executeAll (refs.map Reference.toColumnExpr) b =
      (b, match refs.find? fun ref => decide (b.width ≤ ref.position) with
        | none => .ok (refs.map Reference.position)
        | some ref => .error (.missingColumn ref.position b.width)) := by
  induction refs with
  | nil => rfl
  | cons ref refs ih =>
    rw [List.map_cons, ColumnExpr.executeAll, List.find?_cons]
    by_cases h : ref.position < b.width
    · have hexecute : ref.toColumnExpr.execute b = (b, .ok ref.position) := if_pos h
      rw [hexecute, decide_eq_false (by omega)]
      dsimp only
      rw [ih]
      cases refs.find? fun ref => decide (b.width ≤ ref.position) <;> rfl
    · have hexecute : ref.toColumnExpr.execute b =
          (b, .error (.missingColumn ref.position b.width)) := if_neg h
      rw [hexecute, decide_eq_true (by omega)]

/-! ## Conversion -/

/-- The cells of an output column, for `rows` rows. -/
def Block.toWire (b : Block) (index rows : Nat) (column : ColumnExpr × Nat) :
    Except WriterError (List WireCell) :=
  match b.column? column.2 with
  | none => .error (.missingColumn column.2 b.width)
  | some c => c.column.toWire index column.1.type column.1.scale rows

section Conversion

variable {E : Type} [RowEncoder E]

/-- One output column: its cells, the encoders that they are pushed to, and the rows of the
batch that the cells are appended to. -/
theorem convertColumns_cons (b : Block) (limit index : Nat) (column : ColumnExpr × Nat)
    (columns : List (ColumnExpr × Nat)) (encoders : List E) (pending : PendingBatch) :
    convertColumns b limit index (column :: columns) encoders pending =
      match b.toWire index encoders.length column with
      | .error e => (encoders, pending.begin index, .error e)
      | .ok cells =>
        match pushColumn index 0 cells encoders with
        | (encoders, .error e) => (encoders, pending.begin index, .error e)
        | (encoders, .ok ()) =>
          match (pending.begin index).appendColumn (encoders.map RowEncoder.row) limit with
          | .error e => (encoders, pending.begin index, .error e)
          | .ok pending => convertColumns b limit (index + 1) columns encoders pending := by
  rw [convertColumns, Block.toWire]
  cases b.column? column.2 <;> rfl

/-- What a conversion that completes has done for its first output column. -/
theorem convertColumns_cons_of_ok {b : Block} {limit index : Nat} {column : ColumnExpr × Nat}
    {columns : List (ColumnExpr × Nat)} {encoders filled : List E} {pending after : PendingBatch}
    (h : convertColumns b limit index (column :: columns) encoders pending =
      (filled, after, .ok ())) :
    ∃ cells written appended, b.toWire index encoders.length column = .ok cells ∧
      pushColumn index 0 cells encoders = (written, .ok ()) ∧
      (pending.begin index).appendColumn (written.map RowEncoder.row) limit = .ok appended ∧
      convertColumns b limit (index + 1) columns written appended = (filled, after, .ok ()) := by
  rw [convertColumns_cons] at h
  cases hcells : b.toWire index encoders.length column with
  | error e =>
    rw [hcells] at h
    cases h
  | ok cells =>
    rw [hcells] at h
    dsimp only at h
    cases hpush : pushColumn index 0 cells encoders with
    | mk written result =>
      rw [hpush] at h
      cases result with
      | error e => cases h
      | ok _ =>
        dsimp only at h
        cases happend : (pending.begin index).appendColumn (written.map RowEncoder.row) limit with
        | error e =>
          rw [happend] at h
          cases h
        | ok appended =>
          rw [happend] at h
          exact ⟨cells, written, appended, rfl, hpush, happend, h⟩

theorem pushColumn_length (column row : Nat) (cells : List WireCell) (encoders : List E) :
    (pushColumn column row cells encoders).1.length = encoders.length := by
  induction encoders generalizing row cells with
  | nil => cases cells <;> rfl
  | cons encoder encoders ih =>
    cases cells with
    | nil => rfl
    | cons cell cells =>
      rw [pushColumn]
      cases pushCell (RowEncoder.reset encoder) cell with
      | mk pushed result =>
        cases result with
        | error e => rfl
        | ok _ =>
          show (pushColumn column (row + 1) cells encoders).1.length + 1 = _
          rw [ih, List.length_cons]

/-- Blocks with the same cells in every output column are converted alike. -/
theorem convertColumns_congr {b b' : Block} {rows : Nat} {columns : List (ColumnExpr × Nat)}
    (h : ∀ column ∈ columns, ∀ index, b.toWire index rows column = b'.toWire index rows column)
    (limit index : Nat) {encoders : List E} (hlength : encoders.length = rows)
    (pending : PendingBatch) :
    convertColumns b limit index columns encoders pending =
      convertColumns b' limit index columns encoders pending := by
  induction columns generalizing index encoders pending with
  | nil => rfl
  | cons column columns ih =>
    rw [convertColumns_cons, convertColumns_cons, hlength, h column List.mem_cons_self index]
    cases b'.toWire index rows column with
    | error e => rfl
    | ok cells =>
      have hpushed := pushColumn_length index 0 cells encoders
      dsimp only
      cases hpush : pushColumn index 0 cells encoders with
      | mk filled result =>
        rw [hpush] at hpushed
        cases result with
        | error e => rfl
        | ok _ =>
          dsimp only
          cases (pending.begin index).appendColumn (filled.map RowEncoder.row) limit with
          | error e => rfl
          | ok pending =>
            exact ih (fun column hcolumn => h column (List.mem_cons_of_mem _ hcolumn)) (index + 1)
              (hpushed.trans hlength) pending

/-- What is left of a conversion once the references were executed. -/
theorem convertBlock_references (refs : List Reference) (b : Block) (limit : Nat)
    (encoders : List E) (pending : PendingBatch) :
    convertBlock (refs.map Reference.toColumnExpr) b limit encoders pending =
      (b, match refs.find? fun ref => decide (b.width ≤ ref.position) with
        | none => convertColumns b limit 0 (refs.map fun ref => (ref.toColumnExpr, ref.position))
            encoders pending
        | some ref => (encoders, pending, .error (.missingColumn ref.position b.width))) := by
  rw [convertBlock, executeAll_eq]
  cases refs.find? fun ref => decide (b.width ≤ ref.position) with
  | none =>
    dsimp only
    rw [List.zip_map']
  | some ref => rfl

end Conversion

/-- The encoders that a block is written with, one for each row. -/
theorem Writer.taken_length {E : Type} (w : Writer E) (rows : Nat) :
    ((w.grownPool rows).take rows).length = rows := by
  rw [List.length_take, grownPool, List.length_append, List.length_replicate]
  omega

end ResultSet
