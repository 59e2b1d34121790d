import ResultSet.Proofs.Output.References

/-!
# Placeholders do not show

A null row keeps a placeholder, and a column that is written as sketches or objects keeps
whatever it was given.  Neither is read.

* `StoredRow.visible` blanks the placeholder of a null row, `Shape.layout` forgets the
  function of aggregate states, and `Column.ShowsLike` compares two columns by what is left.
* `Column.toWire_of_showsLike` and `Column.toWire_of_textless` are about one column.
* `Writer.appendBlock_showsLike` puts two blocks side by side.
-/

namespace ResultSet

/-! ## What a column shows -/

/-- The row with a blank in place of the placeholder of a null. -/
def StoredRow.visible : StoredRow → StoredRow
  | .nullable true _ => .nullable true (.state [])
  | .nullable false row => .nullable false row.visible
  | row => row

/-- The layout without the function of aggregate states. -/
def Shape.layout : Shape → Shape
  | .sketches _ => .sketches []
  | .nullable nested => .nullable nested.layout
  | shape => shape

/-- Two columns have the same layout with the same null maps and scale, and the same values at
the rows that are not null. -/
structure Column.ShowsLike (c d : Column) : Prop where
  layout : c.shape.layout = d.shape.layout
  rows : c.rows.map StoredRow.visible = d.rows.map StoredRow.visible

theorem Shape.accept_layout (index : Nat) (declared : SqlType) (shape : Shape) :
    shape.layout.nested.accept index declared = shape.nested.accept index declared := by
  have hstored (shape : Shape) : shape.layout.accept index declared = shape.accept index declared := by
    cases shape with
    | sketches function => cases declared <;> rfl
    | nullable nested => cases declared <;> rfl
    | _ => rfl
  cases shape with
  | nullable nested => exact hstored nested
  | sketches function => exact hstored (.sketches function)
  | _ => rfl

namespace StoredRow

theorem storedWire_visible (declared : SqlType) (scale : Option Nat) (row : StoredRow) :
    row.visible.storedWire declared scale = row.storedWire declared scale := by
  cases row with
  | nullable isNull row => cases isNull <;> cases declared <;> rfl
  | _ => rfl

theorem wire_visible (declared : SqlType) (scale : Option Nat) (row : StoredRow) :
    row.visible.wire declared scale = row.wire declared scale := by
  cases row with
  | nullable isNull row =>
    cases isNull with
    | true => rfl
    | false => exact storedWire_visible declared scale row
  | _ => rfl

end StoredRow

namespace Column

/-- Columns that show the same are written alike, or refused with the same error. -/
theorem toWire_of_showsLike {c d : Column} (hc : c.WellFormed) (hd : d.WellFormed)
    (h : c.ShowsLike d) (index : Nat) (declared : SqlType) (outputScale : Int) :
    c.toWire index declared outputScale c.length = d.toWire index declared outputScale d.length := by
  have haccept : c.shape.nested.accept index declared = d.shape.nested.accept index declared := by
    rw [← Shape.accept_layout, h.layout, Shape.accept_layout]
  have hrows (c : Column) : c.rows.map (StoredRow.wire declared (textScale outputScale)) =
      (c.rows.map StoredRow.visible).map (StoredRow.wire declared (textScale outputScale)) := by
    rw [List.map_map]
    exact List.map_congr_left fun row _ => (StoredRow.wire_visible declared _ row).symm
  rw [toWire_eq hc, toWire_eq hd, haccept, hrows c, hrows d, h.rows]

/-- Sketches and objects are nulls, whatever the column holds. -/
theorem toWire_of_textless {c : Column} (hc : c.WellFormed) {declared : SqlType}
    (h : declared = .hll ∨ declared = .object) (index : Nat) (outputScale : Int) :
    c.toWire index declared outputScale c.length = .ok (List.replicate c.length (.ok .null)) := by
  have haccept : c.shape.nested.accept index declared = .ok () := by
    rcases h with rfl | rfl <;> rfl
  rw [toWire_eq hc, haccept, funext (StoredRow.wire_of_textless h _), List.map_const', rows_length hc]
  rfl

end Column

/-! ## Two blocks side by side -/

/-- Two blocks of one size show the same through the references. -/
structure Block.ShowsLike (refs : List Reference) (b b' : Block) : Prop where
  rows_eq : b.rows = b'.rows
  width_eq : b.width = b'.width
  /-- A column that is written as sketches or objects only may be any other in each block. -/
  columns : ∀ ref ∈ refs, ref.type ≠ .hll → ref.type ≠ .object → ∀ c c',
    b.column? ref.position = some c → b'.column? ref.position = some c' →
      c.column.ShowsLike c'.column

/-- The values of every output column are the same. -/
theorem Block.ShowsLike.toWire_eq {refs : List Reference} {b b' : Block} (hb : b.WellFormed)
    (hb' : b'.WellFormed) (h : b.ShowsLike refs b') {ref : Reference} (href : ref ∈ refs)
    (index : Nat) :
    b.toWire index b.rows (ref.toColumnExpr, ref.position) =
      b'.toWire index b.rows (ref.toColumnExpr, ref.position) := by
  have hnone : b.column? ref.position = none ↔ b'.column? ref.position = none := by
    have hwidth : b.columns.length = b'.columns.length := h.width_eq
    rw [column?, column?, List.getElem?_eq_none_iff, List.getElem?_eq_none_iff, hwidth]
  unfold Block.toWire
  dsimp only
  cases hc : b.column? ref.position with
  | none =>
    rw [hnone.1 hc, h.width_eq]
  | some c =>
    cases hc' : b'.column? ref.position with
    | none =>
      rw [hnone.2 hc'] at hc
      cases hc
    | some c' =>
      have hmem : c ∈ b.columns := List.mem_of_getElem? hc
      have hmem' : c' ∈ b'.columns := List.mem_of_getElem? hc'
      have hwell := hb.columns c hmem
      have hwell' := hb'.columns c' hmem'
      have hlength : c.column.length = b.rows := hb.rectangular c hmem
      have hlength' : c'.column.length = b.rows := (hb'.rectangular c' hmem').trans h.rows_eq.symm
      dsimp only
      by_cases htextless : ref.type = .hll ∨ ref.type = .object
      · have hwire := Column.toWire_of_textless hwell htextless index ref.scale
        have hwire' := Column.toWire_of_textless hwell' htextless index ref.scale
        rw [hlength] at hwire
        rw [hlength'] at hwire'
        exact hwire.trans hwire'.symm
      · obtain ⟨hhll, hobject⟩ := not_or.1 htextless
        have hshows := h.columns ref href hhll hobject c c' hc hc'
        have hwire := Column.toWire_of_showsLike hwell hwell' hshows index ref.type ref.scale
        rwa [hlength, hlength'] at hwire

/-- Writing a block does not depend on the placeholders of its nulls, nor on any column that
is written as sketches or objects only: blocks that show the same get the same answer, the
sink is offered the same bytes, and the same writer is left. -/
theorem Writer.appendBlock_showsLike {E : Type} [RowEncoder E] {w : Writer E}
    {refs : List Reference} (hexprs : w.exprs = .ofReferences true refs) {b b' : Block}
    (hb : b.WellFormed) (hb' : b'.WellFormed) (h : b.ShowsLike refs b') :
    (w.appendBlock b).1 = (w.appendBlock b').1 ∧ (w.appendBlock b).2.1 = (w.appendBlock b').2.1 := by
  have hexprs : w.exprs = .columns (refs.map Reference.toColumnExpr) := hexprs
  cases hencoder : w.encoder with
  | none =>
    rw [appendBlock, appendBlock, hexprs, hencoder]
    exact ⟨rfl, rfl⟩
  | some encoder =>
    by_cases hrows : b.rows = 0
    · have hrows' : b'.rows = 0 := h.rows_eq.symm.trans hrows
      rw [appendBlock, appendBlock, hexprs, hencoder]
      dsimp only
      rw [if_pos hrows, if_pos hrows']
      exact ⟨rfl, rfl⟩
    · have hrows' : b'.rows ≠ 0 := h.rows_eq ▸ hrows
      have hcolumns : ∀ column ∈ refs.map fun ref => (ref.toColumnExpr, ref.position), ∀ index,
          b.toWire index b.rows column = b'.toWire index b.rows column := by
        intro column hcolumn index
        obtain ⟨ref, href, rfl⟩ := List.mem_map.1 hcolumn
        exact h.toWire_eq hb hb' href index
      have hconverted := convertColumns_congr hcolumns w.config.maxRowBytes 0
        (w.taken_length b.rows) (PendingBatch.withRows b.rows)
      have hafter := appendBlock_eq hexprs hencoder hrows
      have hafter' := appendBlock_eq hexprs hencoder hrows'
      rw [convertBlock_references] at hafter hafter'
      rw [← h.rows_eq, ← h.width_eq, ← hconverted] at hafter'
      exact Prod.mk.inj (hafter.trans hafter'.symm)

/-- A name that is null, with a placeholder that is longer than any row may be, and with none;
and a sketch in one block where the other has integers, some of them null. -/
theorem Writer.appendBlock_showsLike_long_placeholder :
    let refs : List Reference := [⟨0, .varchar, unsetScale⟩, ⟨1, .hll, unsetScale⟩]
    let w := ((forText (some (.new fun _ _ => none)) (.ofReferences true refs) ⟨1, 5⟩).run [.init])
    let names (placeholder : Bytes) : NamedColumn := ⟨"name".toList, ⟨.varchar, true⟩,
      .nullable (.strings (.ofList [[0x61, 0x62], placeholder])) [false, true]⟩
    let b : Block := ⟨[names (List.replicate 10 0x78),
      ⟨"users".toList, .plain .hll, .sketches ⟨"hll_union".toList, [[1], [2]]⟩⟩]⟩
    let b' : Block := ⟨[names [],
      ⟨[], ⟨.int, true⟩, .nullable (.cells .int32 [.zero 32, .zero 32]) [true, false]⟩]⟩
    w.exprs = .ofReferences true refs ∧ b.WellFormed ∧ b'.WellFormed ∧ b.ShowsLike refs b' ∧
      (w.appendBlock b).1 = .ok () ∧ (w.appendBlock b).2.1 = (w.appendBlock b').2.1 ∧
      (w.appendBlock b).2.1.offers = [⟨⟨[[2, 0x61, 0x62, 0xFB], [0xFB, 0xFB]]⟩, none⟩] := by
  intro refs w names b b'
  have hnames (placeholder : Bytes) : (names placeholder).column.WellFormed ∧
      (names placeholder).column.length = 2 := ⟨⟨StringColumn.packed_ofList _, rfl⟩, rfl⟩
  have hb : b.WellFormed := by
    apply Block.wellFormed_of_length 2
    simp only [List.mem_cons, List.not_mem_nil, or_false, forall_eq_or_imp, forall_eq]
    exact ⟨hnames _, trivial, rfl⟩
  have hb' : b'.WellFormed := by
    apply Block.wellFormed_of_length 2
    simp only [List.mem_cons, List.not_mem_nil, or_false, forall_eq_or_imp, forall_eq]
    exact ⟨hnames _, ⟨trivial, rfl⟩, rfl⟩
  have hshows : b.ShowsLike refs b' := by
    refine ⟨rfl, rfl, fun ref href hhll _ c c' hc hc' => ?_⟩
    simp only [refs, List.mem_cons, List.not_mem_nil, or_false] at href
    rcases href with rfl | rfl
    · cases hc
      cases hc'
      exact ⟨rfl, rfl⟩
    · exact absurd rfl hhll
  obtain ⟨hanswer, hafter⟩ := appendBlock_showsLike (w := w) rfl hb hb' hshows
  refine ⟨rfl, hb, hb', hshows, hanswer.trans rfl, hafter, ?_⟩
  rw [hafter]
  rfl

end ResultSet
