import ResultSet.Proofs.Column.Packing

/-!
# Columns as lists of stored rows

Whatever its layout, a well-formed column is a list of rows and a `Shape`: the layout with
the attributes that all its rows share, the scale of decimals and the function of aggregate
states.  The same stored row reads differently under another shape.

* `Column.rows` and `Column.shape` take a column apart, `Column.ConsistsOf` names the parts.
* `Column.fieldAt_eq`, `Column.isNullAt?_eq` and `Column.nested_fieldAt_eq` read a row off
  the two parts, so that an operation only has to be followed on the parts.
-/

namespace ResultSet

/-- A layout with the attributes that the rows of a column share. -/
inductive Shape where
  | cells (kind : CellKind)
  | strings
  | decimals (scale : Unsigned 32)
  | sketches (function : Text)
  | nullable (nested : Shape)
deriving DecidableEq

/-- A row as it is stored.  A null row keeps its placeholder. -/
inductive StoredRow where
  | cell (kind : CellKind) (v : kind.Cell)
  | string (v : Bytes)
  | word (v : Signed DecimalWidth.w128.bits)
  | state (data : Bytes)
  | nullable (isNull : Bool) (row : StoredRow)

namespace StoredRow

/-- The null flag of a row of a nullable column. -/
def isNull? : StoredRow → Option Bool
  | .nullable isNull _ => some isNull
  | _ => none

/-- The row without its null flag. -/
def nested : StoredRow → StoredRow
  | .nullable _ row => row
  | row => row

end StoredRow

namespace Shape

/-- The shape without the outer null map. -/
def nested : Shape → Shape
  | .nullable nested => nested
  | shape => shape

/-- A stored row as a field. -/
def field : Shape → StoredRow → Option Field
  | .cells _, .cell kind v => kind.toField v
  | .strings, .string v => some (.string v)
  | .decimals scale, .word v => some (.decimal .w128 ⟨v, scale⟩)
  | .sketches function, .state data => some (.aggregateState ⟨function, data⟩)
  | .nullable _, .nullable true _ => some .null
  | .nullable nested, .nullable false row => nested.field row
  | _, _ => none

end Shape

namespace Column

/-- The layout of a column with the attributes that its rows share. -/
def shape : Column → Shape
  | .cells kind _ => .cells kind
  | .strings _ => .strings
  | .decimals c => .decimals c.scale
  | .sketches c => .sketches c.function
  | .nullable nested _ => .nullable nested.shape

/-- The stored rows of a column. -/
def rows : Column → List StoredRow
  | .cells kind rows => rows.map (.cell kind)
  | .strings c => c.toList.map .string
  | .decimals c => c.rows.map .word
  | .sketches c => c.rows.map .state
  | .nullable nested nulls => List.zipWith .nullable nulls nested.rows

/-- A well-formed column is nothing but these rows, read in this shape. -/
structure ConsistsOf (c : Column) (shape : Shape) (rows : List StoredRow) : Prop where
  wellFormed : c.WellFormed
  shape_eq : c.shape = shape
  rows_eq : c.rows = rows

theorem rows_length {c : Column} (h : c.WellFormed) : c.rows.length = c.length := by
  induction c with
  | cells kind rows => exact List.length_map _
  | strings c => rw [rows, List.length_map, StringColumn.toList_length]; rfl
  | decimals c => exact List.length_map _
  | sketches c => exact List.length_map _
  | nullable nested nulls ih =>
    rw [rows, List.length_zipWith, ih h.1, ← h.2, Nat.min_self]
    rfl

/-! ## Columns that hold some rows -/

theorem consistsOf_cells (kind : CellKind) (rows : List kind.Cell) :
    (Column.cells kind rows).ConsistsOf (.cells kind) (rows.map (.cell kind)) := ⟨trivial, rfl, rfl⟩

theorem consistsOf_strings (values : List Bytes) :
    (Column.strings (.ofList values)).ConsistsOf .strings (values.map .string) :=
  ⟨StringColumn.packed_ofList values, rfl, by rw [rows, StringColumn.toList_ofList]⟩

theorem consistsOf_decimals (words : List (Signed DecimalWidth.w128.bits)) (scale : Unsigned 32) :
    (Column.decimals ⟨words, scale⟩).ConsistsOf (.decimals scale) (words.map .word) :=
  ⟨trivial, rfl, rfl⟩

theorem consistsOf_sketches (function : Text) (states : List Bytes) :
    (Column.sketches ⟨function, states⟩).ConsistsOf (.sketches function) (states.map .state) :=
  ⟨trivial, rfl, rfl⟩

namespace ConsistsOf

variable {c nested : Column} {shape : Shape} {rows : List StoredRow}

theorem length_eq (h : c.ConsistsOf shape rows) : c.length = rows.length := by
  rw [← h.rows_eq, rows_length h.wellFormed]

theorem nullable (h : nested.ConsistsOf shape rows) {nulls : List Bool}
    (hlength : nulls.length = rows.length) :
    (Column.nullable nested nulls).ConsistsOf (.nullable shape)
      (List.zipWith .nullable nulls rows) :=
  ⟨⟨h.wellFormed, hlength.trans h.length_eq.symm⟩, congrArg Shape.nullable h.shape_eq,
    congrArg (List.zipWith StoredRow.nullable nulls) h.rows_eq⟩

end ConsistsOf

/-! ## Reading rows -/

theorem bind_getElem?_map {α β γ : Type} (f : α → β) (read : β → Option γ) (rows : List α)
    (i : Nat) : (rows.map f)[i]?.bind read = rows[i]?.bind fun row => read (f row) := by
  rw [List.getElem?_map, Option.bind_map]
  rfl

/-- A row is read by looking up what is stored and giving it its meaning. -/
theorem fieldAt_eq {c : Column} (h : c.WellFormed) (i : Nat) :
    c.fieldAt i = c.rows[i]?.bind c.shape.field := by
  induction c with
  | cells kind cells =>
    rw [rows, bind_getElem?_map]
    rfl
  | strings c =>
    rw [rows, bind_getElem?_map, StringColumn.getElem?_toList h]
    exact Option.map_eq_bind
  | decimals c =>
    rw [rows, bind_getElem?_map]
    exact Option.map_eq_bind
  | sketches c =>
    rw [rows, bind_getElem?_map]
    exact Option.map_eq_bind
  | nullable nested nulls ih =>
    have hlength : nested.rows.length = nulls.length := (rows_length h.1).trans h.2.symm
    rw [fieldAt, rows, List.getElem?_zipWith, ih h.1]
    by_cases hi : i < nulls.length
    · rw [List.getElem?_eq_getElem hi, List.getElem?_eq_getElem (hlength ▸ hi)]
      cases nulls[i] <;> rfl
    · rw [List.getElem?_eq_none (Nat.le_of_not_lt hi)]
      rfl

theorem isNullAt?_eq {c : Column} (h : c.WellFormed) (i : Nat) :
    c.isNullAt? i = c.rows[i]?.bind StoredRow.isNull? := by
  have hplain {α : Type} (f : α → StoredRow) (hf : ∀ v, (f v).isNull? = none) (rows : List α) :
      none = (rows.map f)[i]?.bind StoredRow.isNull? := by
    rw [bind_getElem?_map]
    cases rows[i]? with
    | none => rfl
    | some v => exact (hf v).symm
  cases c with
  | cells kind rows => exact hplain _ (fun _ => rfl) rows
  | strings c => exact hplain _ (fun _ => rfl) c.toList
  | decimals c => exact hplain _ (fun _ => rfl) c.rows
  | sketches c => exact hplain _ (fun _ => rfl) c.rows
  | nullable nested nulls =>
    have hlength : nested.rows.length = nulls.length := (rows_length h.1).trans h.2.symm
    show nulls[i]? = _
    rw [rows, List.getElem?_zipWith]
    by_cases hi : i < nulls.length
    · rw [List.getElem?_eq_getElem hi, List.getElem?_eq_getElem (hlength ▸ hi)]
      rfl
    · rw [List.getElem?_eq_none (Nat.le_of_not_lt hi)]
      rfl

theorem WellFormed.nested {c : Column} (h : c.WellFormed) : c.nested.WellFormed := by
  cases c with
  | nullable nested nulls => exact h.1
  | _ => exact h

theorem nested_shape (c : Column) : c.nested.shape = c.shape.nested := by
  cases c <;> rfl

/-- The nested column of a nullable one has the placeholders of its rows. -/
theorem nested_rows {c : Column} (h : c.WellFormed) :
    c.nested.rows = c.rows.map StoredRow.nested := by
  have hplain {α : Type} (f : α → StoredRow) (hf : ∀ v, (f v).nested = f v) (rows : List α) :
      rows.map f = (rows.map f).map StoredRow.nested := by
    rw [List.map_map]
    exact List.map_congr_left fun v _ => (hf v).symm
  cases c with
  | cells kind rows => exact hplain _ (fun _ => rfl) rows
  | strings c => exact hplain _ (fun _ => rfl) c.toList
  | decimals c => exact hplain _ (fun _ => rfl) c.rows
  | sketches c => exact hplain _ (fun _ => rfl) c.rows
  | nullable nested nulls =>
    have hlength : nested.rows.length ≤ nulls.length :=
      Nat.le_of_eq ((rows_length h.1).trans h.2.symm)
    have hsnd : (nulls.zip nested.rows).map Prod.snd = nested.rows := List.map_snd_zip hlength
    rw [List.zip_eq_zipWith, List.map_zipWith] at hsnd
    rw [rows, List.map_zipWith]
    exact hsnd.symm

theorem nested_fieldAt_eq {c : Column} (h : c.WellFormed) (i : Nat) :
    c.nested.fieldAt i = c.rows[i]?.bind fun row => c.shape.nested.field row.nested := by
  rw [fieldAt_eq h.nested, nested_rows h, nested_shape, bind_getElem?_map]

/-- Rows of two columns of one shape that store the same read the same. -/
theorem reads_eq {c d : Column} (hc : c.WellFormed) (hd : d.WellFormed)
    (hshape : d.shape = c.shape) {i j : Nat} (hrow : d.rows[j]? = c.rows[i]?) :
    d.fieldAt j = c.fieldAt i ∧ d.isNullAt? j = c.isNullAt? i ∧
      d.nested.fieldAt j = c.nested.fieldAt i := by
  rw [fieldAt_eq hc, fieldAt_eq hd, isNullAt?_eq hc, isNullAt?_eq hd, nested_fieldAt_eq hc,
    nested_fieldAt_eq hd, hshape, hrow]
  exact ⟨rfl, rfl, rfl⟩

end Column

end ResultSet
