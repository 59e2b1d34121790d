import ResultSet.Proofs.Column.Rows
import ResultSet.Proofs.Field.Equality

/-!
# Rows that move from one column to another

Rows move between columns as they are stored: a word stays the same word, a state the same
bytes.  They are read in the shape of the column that they end up in.

* `appendRange_consistsOf` says what is stored afterwards, on every level of nesting, and
  `appendRow_eq_ok` that one row is moved like a range of one.
* `Shape.Agrees` says which stored rows read as the same value in two shapes, and
  `Shape.same_iff` that no other row does.
* `Appended` is what a reader of the extended column sees, and `append_reads` the law.
-/

namespace ResultSet

theorem of_guard_eq_ok {ε : Type} {p : Prop} [Decidable p] {e : ε}
    (h : (if p then Except.ok () else Except.error e) = .ok ()) : p := by
  by_cases hp : p
  · exact hp
  · rw [if_neg hp] at h
    cases h

theorem exists_of_bind_eq_ok {ε α β : Type} {x : Except ε α} {f : α → Except ε β} {b : β}
    (h : x >>= f = .ok b) : ∃ a, x = .ok a ∧ f a = .ok b := by
  cases x with
  | error e => cases h
  | ok a => exact ⟨a, rfl, h⟩

theorem exists_of_map_eq_ok {ε α β : Type} {x : Except ε α} {f : α → β} {b : β}
    (h : x.map f = .ok b) : ∃ a, x = .ok a ∧ f a = b := by
  cases x with
  | error e => cases h
  | ok a => exact ⟨a, rfl, Except.ok.inj h⟩

namespace Selection

variable {α : Type}

theorem checkRange_eq_ok {start count size : Nat} (h : checkRange start count size = .ok ()) :
    start + count ≤ size := of_guard_eq_ok h

theorem checkIndex_eq_ok {index size : Nat} (h : checkIndex index size = .ok ()) :
    index < size := of_guard_eq_ok h

theorem checkPop_eq_ok {count size : Nat} (h : checkPop count size = .ok ()) :
    count ≤ size := of_guard_eq_ok h

theorem checkRange_one {index size : Nat} (h : checkIndex index size = .ok ()) :
    checkRange index 1 size = .ok () := if_pos (checkIndex_eq_ok h)

theorem appendRange_eq_ok {target source result : List α} {start count : Nat}
    (h : appendRange target source start count = .ok result) :
    start + count ≤ source.length ∧ result = target ++ (source.drop start).take count := by
  obtain ⟨_, hcheck, hresult⟩ := exists_of_bind_eq_ok h
  exact ⟨checkRange_eq_ok hcheck, (Except.ok.inj hresult).symm⟩

theorem appendRow_eq_ok {target source result : List α} {index : Nat}
    (h : appendRow target source index = .ok result) :
    appendRange target source index 1 = .ok result := by
  obtain ⟨_, hcheck, hresult⟩ := exists_of_bind_eq_ok h
  rw [appendRange, checkRange_one hcheck]
  exact hresult

theorem map_appended {β : Type} (f : α → β) (target source : List α) (start count : Nat) :
    target.map f ++ ((source.map f).drop start).take count =
      (target ++ (source.drop start).take count).map f := by
  rw [List.map_append, List.map_take, List.map_drop]

end Selection

theorem StringColumn.appendRange_eq_ok {target source result : StringColumn} {start count : Nat}
    (ht : target.Packed) (hs : source.Packed)
    (h : target.appendRange source start count = .ok result) :
    start + count ≤ source.toList.length ∧
      result = .ofList (target.toList ++ (source.toList.drop start).take count) := by
  obtain ⟨_, hcheck, _⟩ := exists_of_bind_eq_ok h
  have hrange : start + count ≤ source.toList.length := by
    rw [toList_length]
    exact Selection.checkRange_eq_ok hcheck
  have happend := appendRange_ofList target.toList source.toList hrange
  rw [← eq_ofList_toList ht, ← eq_ofList_toList hs, h] at happend
  exact ⟨hrange, Except.ok.inj happend⟩

theorem StringColumn.appendRow_eq_ok {target source result : StringColumn} {index : Nat}
    (ht : target.Packed) (hs : source.Packed)
    (h : target.appendRow source index = .ok result) :
    target.appendRange source index 1 = .ok result := by
  obtain ⟨_, hcheck, _⟩ := exists_of_bind_eq_ok h
  have hindex : index < source.toList.length := by
    rw [toList_length]
    exact Selection.checkIndex_eq_ok hcheck
  rw [← h, eq_ofList_toList ht, eq_ofList_toList hs, appendRow_ofList _ _ hindex,
    appendRange_ofList _ _ hindex]

/-! ## Values -/

/-- Two reads give the same value, or both give none. -/
def Field.Same : Option Field → Option Field → Prop
  | none, none => True
  | some f, some g => f.sameValue g = .ok true
  | _, _ => False

theorem Field.same_self (f : Option Field) : Field.Same f f := by
  cases f with
  | none => trivial
  | some f => exact Field.sameValue_self f

theorem Field.same_decimal {w : DecimalWidth} {word : Signed w.bits} {scale other : Unsigned 32} :
    Field.Same (some (.decimal w ⟨word, scale⟩)) (some (.decimal w ⟨word, other⟩)) ↔
      scale = other ∨ word.val = 0 := by
  rw [← FixedDecimal.sameValue_word]
  simp [Field.Same, Field.sameValue]

theorem Field.same_state {data : Bytes} {function other : Text} :
    Field.Same (some (.aggregateState ⟨function, data⟩)) (some (.aggregateState ⟨other, data⟩)) ↔
      function = other := by
  simp [Field.Same, Field.sameValue]

namespace Shape

/-- The layouts are the same on every level; scales and functions may differ. -/
def SameLayout : Shape → Shape → Prop
  | .cells kind, .cells other => kind = other
  | .strings, .strings | .decimals _, .decimals _ | .sketches _, .sketches _ => True
  | .nullable shape, .nullable other => shape.SameLayout other
  | _, _ => False

/-- The stored row means the same in both shapes: a word has one scale or is zero, a state
has one function. -/
def Agrees : Shape → Shape → StoredRow → Prop
  | .decimals scale, .decimals other, .word v => scale = other ∨ v.val = 0
  | .sketches function, .sketches other, .state _ => function = other
  | .nullable shape, .nullable other, .nullable false row => shape.Agrees other row
  | _, _, _ => True

/-- A row reads as the same value in two shapes of one layout exactly where they agree. -/
theorem same_iff {shape other : Shape} (h : shape.SameLayout other) (row : StoredRow) :
    Field.Same (shape.field row) (other.field row) ↔ shape.Agrees other row := by
  induction shape generalizing other row with
  | cells kind =>
    cases other with
    | cells kind' =>
      have hsame : (cells kind).field row = (cells kind').field row := by cases row <;> rfl
      rw [hsame]
      exact ⟨fun _ => by cases row <;> trivial, fun _ => Field.same_self _⟩
    | _ => cases h
  | strings =>
    cases other with
    | strings => exact ⟨fun _ => by cases row <;> trivial, fun _ => Field.same_self _⟩
    | _ => cases h
  | decimals scale =>
    cases other with
    | decimals scale' =>
      cases row with
      | word v => exact Field.same_decimal
      | _ => exact Iff.rfl
    | _ => cases h
  | sketches function =>
    cases other with
    | sketches function' =>
      cases row with
      | state data => exact Field.same_state
      | _ => exact Iff.rfl
    | _ => cases h
  | nullable shape ih =>
    cases other with
    | nullable other =>
      cases row with
      | nullable isNull row =>
        cases isNull with
        | true => exact ⟨fun _ => trivial, fun _ => Field.same_self _⟩
        | false => exact ih h row
      | _ => exact Iff.rfl
    | _ => cases h

end Shape

namespace DecimalColumn

variable {w : DecimalWidth}

theorem appendRow_eq_ok {target source result : DecimalColumn w} {index : Nat}
    (h : target.appendRow source index = .ok result) :
    ∃ word, source.rows[index]? = some word ∧ result = target.push word := by
  obtain ⟨words, hwords, rfl⟩ := exists_of_map_eq_ok h
  obtain ⟨hindex, rfl⟩ := Selection.appendRange_eq_ok (Selection.appendRow_eq_ok hwords)
  refine ⟨source.rows[index], List.getElem?_eq_getElem hindex, ?_⟩
  rw [List.drop_eq_getElem_cons hindex]
  rfl

theorem fieldAt_push_of_lt (c : DecimalColumn w) (word : Signed w.bits) {i : Nat}
    (h : i < c.length) : (c.push word).fieldAt i = c.fieldAt i := by
  rw [fieldAt, push, List.getElem?_append_left h]
  rfl

theorem fieldAt_push (c : DecimalColumn w) (word : Signed w.bits) :
    (c.push word).fieldAt c.length = some (.decimal w ⟨word, c.scale⟩) := by
  rw [fieldAt, push, length, List.getElem?_concat_length]
  rfl

end DecimalColumn

namespace Column

/-! ## What is stored -/

/-- Rows move between columns of one layout, and end up behind the rows of the target as
they are stored. -/
theorem appendRange_consistsOf {target source result : Column} {start count : Nat}
    (ht : target.WellFormed) (hs : source.WellFormed)
    (h : target.appendRange source start count = .ok result) :
    target.shape.SameLayout source.shape ∧ start + count ≤ source.rows.length ∧
      result.ConsistsOf target.shape (target.rows ++ (source.rows.drop start).take count) := by
  fun_induction appendRange target source start count generalizing result with
  | case1 kind others cells =>
    obtain ⟨cells', happend, hresult⟩ := exists_of_bind_eq_ok h
    obtain ⟨hrange, rfl⟩ := Selection.appendRange_eq_ok happend
    obtain rfl := Except.ok.inj hresult
    refine ⟨rfl, by rw [rows, List.length_map]; exact hrange, ?_⟩
    rw [rows, rows, Selection.map_appended]
    exact consistsOf_cells kind _
  | case2 => cases h
  | case3 l r =>
    obtain ⟨c, happend, hresult⟩ := exists_of_bind_eq_ok h
    obtain ⟨hrange, rfl⟩ := StringColumn.appendRange_eq_ok ht hs happend
    obtain rfl := Except.ok.inj hresult
    refine ⟨trivial, by rw [rows, List.length_map]; exact hrange, ?_⟩
    rw [rows, rows, Selection.map_appended]
    exact consistsOf_strings _
  | case4 l r =>
    obtain ⟨c, happend, hresult⟩ := exists_of_bind_eq_ok h
    obtain ⟨words, hwords, rfl⟩ := exists_of_map_eq_ok happend
    obtain ⟨hrange, rfl⟩ := Selection.appendRange_eq_ok hwords
    obtain rfl := Except.ok.inj hresult
    refine ⟨trivial, by rw [rows, List.length_map]; exact hrange, ?_⟩
    rw [rows, rows, Selection.map_appended]
    exact consistsOf_decimals _ _
  | case5 l r =>
    obtain ⟨c, happend, hresult⟩ := exists_of_bind_eq_ok h
    obtain ⟨states, hstates, rfl⟩ := exists_of_map_eq_ok happend
    obtain ⟨hrange, rfl⟩ := Selection.appendRange_eq_ok hstates
    obtain rfl := Except.ok.inj hresult
    refine ⟨trivial, by rw [rows, List.length_map]; exact hrange, ?_⟩
    rw [rows, rows, Selection.map_appended]
    exact consistsOf_sketches _ _
  | case6 l nulls r otherNulls ih =>
    obtain ⟨_, _, hrest⟩ := exists_of_bind_eq_ok h
    obtain ⟨d, happend, hresult⟩ := exists_of_bind_eq_ok hrest
    obtain ⟨hlayout, hrange, hd⟩ := ih ht.1 hs.1 happend
    obtain rfl := Except.ok.inj hresult
    -- the null maps are as long as the nested rows, so both grow by the same rows
    have hlength : nulls.length = l.rows.length := ht.2.trans (rows_length ht.1).symm
    have hothers : otherNulls.length = r.rows.length := hs.2.trans (rows_length hs.1).symm
    refine ⟨hlayout, ?_, ?_⟩
    · rw [rows, List.length_zipWith, hothers, Nat.min_self]
      exact hrange
    · rw [rows, rows, List.drop_zipWith, List.take_zipWith, ← List.zipWith_append hlength]
      refine hd.nullable ?_
      rw [List.length_append, List.length_append, List.length_take, List.length_take,
        List.length_drop, List.length_drop, hlength, hothers]
  | case7 => cases h

/-- One row is moved like a range of one. -/
theorem appendRow_eq_ok {target source result : Column} {index : Nat}
    (ht : target.WellFormed) (hs : source.WellFormed)
    (h : target.appendRow source index = .ok result) :
    target.appendRange source index 1 = .ok result := by
  revert h
  fun_cases appendRow target source index <;> intro h
  case case1 kind others cells =>
    obtain ⟨cells', happend, hresult⟩ := exists_of_bind_eq_ok h
    rw [appendRange, dif_pos rfl, Selection.appendRow_eq_ok happend]
    exact hresult
  case case2 => cases h
  case case3 l r =>
    obtain ⟨c, happend, hresult⟩ := exists_of_bind_eq_ok h
    rw [appendRange, StringColumn.appendRow_eq_ok ht hs happend]
    exact hresult
  case case4 l r =>
    obtain ⟨c, happend, hresult⟩ := exists_of_bind_eq_ok h
    obtain ⟨words, hwords, rfl⟩ := exists_of_map_eq_ok happend
    rw [appendRange, DecimalColumn.appendRange, Selection.appendRow_eq_ok hwords]
    exact hresult
  case case5 l r =>
    obtain ⟨c, happend, hresult⟩ := exists_of_bind_eq_ok h
    obtain ⟨states, hstates, rfl⟩ := exists_of_map_eq_ok happend
    rw [appendRange, SketchColumn.appendRange, Selection.appendRow_eq_ok hstates]
    exact hresult
  case case6 l nulls r otherNulls =>
    obtain ⟨_, hcheck, hrest⟩ := exists_of_bind_eq_ok h
    rw [appendRange, Selection.checkRange_one hcheck]
    exact hrest
  case case7 => cases h

/-! ## What is read -/

/-- Rows that were there before are read as before. -/
theorem ConsistsOf.fieldAt_append {c result : Column} (hc : c.WellFormed) {more : List StoredRow}
    (h : result.ConsistsOf c.shape (c.rows ++ more)) {i : Nat} (hi : i < c.length) :
    result.fieldAt i = c.fieldAt i := by
  have hrow : result.rows[i]? = c.rows[i]? := by
    rw [h.rows_eq, List.getElem?_append_left (by rw [rows_length hc]; exact hi)]
  exact (reads_eq hc h.wellFormed h.shape_eq hrow).1

/-- `result` is `target` with `count` rows of `source` from `start` on behind its own. -/
structure Appended (target source result : Column) (start count : Nat) : Prop where
  bound : start + count ≤ source.length
  wellFormed : result.WellFormed
  shape_eq : result.shape = target.shape
  length_eq : result.length = target.length + count
  earlier : ∀ i, i < target.length → result.fieldAt i = target.fieldAt i
  appended : ∀ k, k < count → ∃ row,
    source.rows[start + k]? = some row ∧ result.rows[target.length + k]? = some row ∧
    source.fieldAt (start + k) = source.shape.field row ∧
    result.fieldAt (target.length + k) = target.shape.field row ∧
    (Field.Same (result.fieldAt (target.length + k)) (source.fieldAt (start + k)) ↔
      target.shape.Agrees source.shape row)

theorem appendRange_appended {target source result : Column} {start count : Nat}
    (ht : target.WellFormed) (hs : source.WellFormed)
    (h : target.appendRange source start count = .ok result) :
    Appended target source result start count := by
  obtain ⟨hlayout, hbound, hresult⟩ := appendRange_consistsOf ht hs h
  have hlength : result.length = target.length + count := by
    rw [hresult.length_eq, List.length_append, List.length_take, List.length_drop,
      rows_length ht]
    omega
  rw [rows_length hs] at hbound
  refine ⟨hbound, hresult.wellFormed, hresult.shape_eq, hlength,
    fun i hi => hresult.fieldAt_append ht hi, fun k hk => ?_⟩
  have hsource : start + k < source.rows.length := by
    rw [rows_length hs]
    omega
  have hrow : source.rows[start + k]? = some source.rows[start + k] :=
    List.getElem?_eq_getElem hsource
  have hstored : result.rows[target.length + k]? = some source.rows[start + k] := by
    rw [hresult.rows_eq, ← rows_length ht, List.getElem?_append_right (Nat.le_add_right ..),
      Nat.add_sub_cancel_left, List.getElem?_take_of_lt hk, List.getElem?_drop, hrow]
  have hread := fieldAt_eq hs (start + k)
  have hwritten := fieldAt_eq hresult.wellFormed (target.length + k)
  rw [hrow, Option.bind_some] at hread
  rw [hstored, hresult.shape_eq, Option.bind_some] at hwritten
  refine ⟨_, hrow, hstored, hread, hwritten, ?_⟩
  rw [hread, hwritten]
  exact Shape.same_iff hlayout _

/-- Appended rows are stored as they were, and read in the shape of the target: as the value
that they had exactly where both shapes agree, and otherwise a word at the scale of the
target or a state of its function.  The second part is the row-wise law for decimals of any
width. -/
theorem append_reads :
    (∀ (target source result : Column) (start count : Nat),
      target.WellFormed → source.WellFormed →
      (target.appendRange source start count = .ok result ∨
        count = 1 ∧ target.appendRow source start = .ok result) →
      Appended target source result start count) ∧
    ∀ (w : DecimalWidth) (target source result : DecimalColumn w) (index : Nat),
      target.appendRow source index = .ok result →
      result.length = target.length + 1 ∧
      (∀ i, i < target.length → result.fieldAt i = target.fieldAt i) ∧
      ∃ word, source.fieldAt index = some (.decimal w ⟨word, source.scale⟩) ∧
        result.fieldAt target.length = some (.decimal w ⟨word, target.scale⟩) ∧
        (Field.Same (result.fieldAt target.length) (source.fieldAt index) ↔
          target.scale = source.scale ∨ word.val = 0) := by
  refine ⟨fun target source result start count ht hs h => ?_,
    fun w target source result index h => ?_⟩
  · rcases h with hrange | ⟨rfl, hrow⟩
    · exact appendRange_appended ht hs hrange
    · exact appendRange_appended ht hs (appendRow_eq_ok ht hs hrow)
  · obtain ⟨word, hword, rfl⟩ := DecimalColumn.appendRow_eq_ok h
    have hread : source.fieldAt index = some (.decimal w ⟨word, source.scale⟩) := by
      rw [DecimalColumn.fieldAt, hword]
      rfl
    have hwritten := DecimalColumn.fieldAt_push target word
    refine ⟨List.length_append, fun i hi => DecimalColumn.fieldAt_push_of_lt target word hi,
      word, hread, hwritten, ?_⟩
    rw [hread, hwritten]
    exact Field.same_decimal

/-- Two nullable columns of decimals with different scales: the word of the first row is
read at the scale of the target, the null row stays null. -/
theorem append_reads_other_scale :
    let target := Column.nullable (.decimals ⟨[], ⟨2, by decide⟩⟩) []
    let source := Column.nullable
      (.decimals ⟨[⟨15, by decide, by decide⟩, Signed.zero 128], ⟨1, by decide⟩⟩) [false, true]
    target.WellFormed ∧ source.WellFormed ∧ ∃ result, target.appendRange source 0 2 = .ok result ∧
      ¬Field.Same (result.fieldAt 0) (source.fieldAt 0) ∧
      Field.Same (result.fieldAt 1) (source.fieldAt 1) := by
  intro target source
  have ht : target.WellFormed := ⟨trivial, rfl⟩
  have hs : source.WellFormed := ⟨trivial, rfl⟩
  have hok : ∃ result, target.appendRange source 0 2 = .ok result := ⟨_, rfl⟩
  obtain ⟨result, hresult⟩ := hok
  have happended := append_reads.1 target source result 0 2 ht hs (.inl hresult)
  obtain ⟨row, hrow, -, -, -, hfirst⟩ := happended.appended 0 (by decide)
  obtain ⟨null, hnull, -, -, -, hsecond⟩ := happended.appended 1 (by decide)
  obtain rfl := Option.some.inj hrow
  obtain rfl := Option.some.inj hnull
  refine ⟨ht, hs, result, hresult, fun h => ?_, hsecond.2 trivial⟩
  have hagrees : (⟨2, by decide⟩ : Unsigned 32) = ⟨1, by decide⟩ ∨ (15 : Int) = 0 := hfirst.1 h
  exact absurd hagrees (by decide)

/-- Fifteen tenths that are appended to hundredths are read as fifteen hundredths. -/
theorem appendRange_changes_value :
    let target := Column.decimals ⟨[], ⟨2, by decide⟩⟩
    let source := Column.decimals ⟨[⟨15, by decide, by decide⟩], ⟨1, by decide⟩⟩
    ∃ result, target.appendRange source 0 1 = .ok result ∧
      source.fieldAt 0 = some (.decimal .w128 ⟨⟨15, by decide, by decide⟩, ⟨1, by decide⟩⟩) ∧
      result.fieldAt 0 = some (.decimal .w128 ⟨⟨15, by decide, by decide⟩, ⟨2, by decide⟩⟩) ∧
      ¬Field.Same (result.fieldAt 0) (source.fieldAt 0) := by
  refine ⟨_, rfl, rfl, rfl, fun h => ?_⟩
  have hscale := Field.same_decimal.1 h
  exact absurd hscale (by decide)

end Column

end ResultSet
