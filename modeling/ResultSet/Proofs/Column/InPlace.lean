import ResultSet.Column.InPlace
import ResultSet.Proofs.Column.Append

/-!
# Changes in place

A change of a nullable column could stop between its nested column and its null map, on any
level of nesting.  It does not: `insertRange_eq`, `insertRow_eq` and `removeLast_eq` show that
the steps leave either the changed column or the column as it was, and nothing in between.

The changed column is well formed again.  What it stores is said by `appendRange_consistsOf`,
`pushDefault_consistsOf` and `popBack_consistsOf`.
-/

namespace ResultSet

/-! ## What is stored -/

/-- The stored form of the rows that `Column.pushDefault` adds. -/
def Shape.default : Shape → StoredRow
  | .cells kind => .cell kind kind.default
  | .strings => .string []
  | .decimals _ => .word (Signed.zero _)
  | .sketches _ => .state []
  | .nullable shape => .nullable true shape.default

theorem Selection.dropLast_eq_ok {α : Type} {rows result : List α} {count : Nat}
    (h : dropLast rows count = .ok result) : result = rows.take (rows.length - count) := by
  obtain ⟨_, _, hresult⟩ := exists_of_bind_eq_ok h
  exact (Except.ok.inj hresult).symm

namespace StringColumn

theorem popBack_eq_ok {c result : StringColumn} {count : Nat} (hc : c.Packed)
    (h : c.popBack count = .ok result) :
    result = .ofList (c.toList.take (c.toList.length - count)) := by
  obtain ⟨_, hcheck, _⟩ := exists_of_bind_eq_ok h
  have hcount : count ≤ c.toList.length := by
    rw [toList_length]
    exact Selection.checkPop_eq_ok hcheck
  have hpop := popBack_ofList c.toList hcount
  rw [← eq_ofList_toList hc, h] at hpop
  exact Except.ok.inj hpop

theorem Packed.push {c : StringColumn} (h : c.Packed) (value : Bytes) : (c.push value).Packed := by
  rw [StringColumn.push, eq_ofList_toList h, extend_ofList]
  exact packed_ofList _

theorem Packed.pushField {c result : StringColumn} {f : Field} (hc : c.Packed)
    (h : c.pushField f = .ok result) : result.Packed := by
  rw [StringColumn.pushField] at h
  split at h
  · obtain rfl := Except.ok.inj h
    exact hc.push _
  · cases h

end StringColumn

namespace Column

theorem pushDefault_consistsOf {c : Column} (h : c.WellFormed) :
    c.pushDefault.ConsistsOf c.shape (c.rows ++ [c.shape.default]) := by
  induction c with
  | cells kind cells =>
    have hrows := consistsOf_cells kind (cells ++ [kind.default])
    rw [List.map_append] at hrows
    exact hrows
  | strings c =>
    have hrows := consistsOf_strings (c.toList ++ [[]])
    rw [List.map_append, ← StringColumn.extend_ofList, ← StringColumn.eq_ofList_toList h] at hrows
    exact hrows
  | decimals c =>
    have hrows := consistsOf_decimals (c.rows ++ [Signed.zero _]) c.scale
    rw [List.map_append] at hrows
    exact hrows
  | sketches c =>
    have hrows := consistsOf_sketches c.function (c.rows ++ [[]])
    rw [List.map_append] at hrows
    exact hrows
  | nullable nested nulls ih =>
    have hlength : nulls.length = nested.rows.length := h.2.trans (rows_length h.1).symm
    have hpushed : (nulls ++ [true]).length = (nested.rows ++ [nested.shape.default]).length := by
      rw [List.length_append, List.length_append, hlength]
      rfl
    have hrows := (ih h.1).nullable hpushed
    rw [List.zipWith_append hlength] at hrows
    exact hrows

theorem popBack_consistsOf {c result : Column} {count : Nat} (hc : c.WellFormed)
    (h : c.popBack count = .ok result) :
    result.ConsistsOf c.shape (c.rows.take (c.rows.length - count)) := by
  induction c generalizing result with
  | cells kind cells =>
    obtain ⟨cells', hdrop, hresult⟩ := exists_of_bind_eq_ok h
    obtain rfl := Selection.dropLast_eq_ok hdrop
    obtain rfl := Except.ok.inj hresult
    rw [rows, List.length_map, ← List.map_take]
    exact consistsOf_cells kind _
  | strings c =>
    obtain ⟨c', hpop, hresult⟩ := exists_of_bind_eq_ok h
    obtain rfl := StringColumn.popBack_eq_ok hc hpop
    obtain rfl := Except.ok.inj hresult
    rw [rows, List.length_map, ← List.map_take]
    exact consistsOf_strings _
  | decimals c =>
    obtain ⟨c', hpop, hresult⟩ := exists_of_bind_eq_ok h
    obtain ⟨words, hdrop, rfl⟩ := exists_of_map_eq_ok hpop
    obtain rfl := Selection.dropLast_eq_ok hdrop
    obtain rfl := Except.ok.inj hresult
    rw [rows, List.length_map, ← List.map_take]
    exact consistsOf_decimals _ _
  | sketches c =>
    obtain ⟨c', hpop, hresult⟩ := exists_of_bind_eq_ok h
    obtain ⟨states, hdrop, rfl⟩ := exists_of_map_eq_ok hpop
    obtain rfl := Selection.dropLast_eq_ok hdrop
    obtain rfl := Except.ok.inj hresult
    rw [rows, List.length_map, ← List.map_take]
    exact consistsOf_sketches _ _
  | nullable nested nulls ih =>
    obtain ⟨d, hpop, hresult⟩ := exists_of_bind_eq_ok h
    obtain rfl := Except.ok.inj hresult
    have hlength : nulls.length = nested.rows.length := hc.2.trans (rows_length hc.1).symm
    have hd := ih hc.1 hpop
    have htaken : (nulls.take (nulls.length - count)).length =
        (nested.rows.take (nested.rows.length - count)).length := by
      rw [List.length_take, List.length_take, hlength]
    have hrows := hd.nullable htaken
    rw [hlength, ← List.take_zipWith] at hrows
    rw [rows, List.length_zipWith, hlength, Nat.min_self]
    exact hrows

/-! ## All or nothing -/

theorem leave_cases (c : Column) (answer : Except ColumnError Column) :
    (∃ changed, answer = .ok changed ∧ leave c answer = (changed, .ok ())) ∨
      ∃ e, leave c answer = (c, .error e) := by
  cases answer with
  | ok changed => exact .inl ⟨changed, rfl, rfl⟩
  | error e => exact .inr ⟨e, rfl⟩

theorem withNested_leave (nested : Column) (nulls changed : List Bool)
    (answer : Except ColumnError Column) :
    withNested nulls changed (leave nested answer) =
      leave (.nullable nested nulls) (answer.map (.nullable · changed)) := by
  cases answer <;> rfl

/-- Rows of another column are put behind the rows of the column, or the column stays as it
was. -/
theorem insertRange_eq (target source : Column) (start count : Nat) :
    target.insertRange source start count =
      leave target (target.appendRange source start count) := by
  fun_induction insertRange target source start count with
  | case1 l nulls r otherNulls e hcheck =>
    rw [appendRange, hcheck]
    rfl
  | case2 l nulls r otherNulls hcheck ih =>
    -- a refusal from further down left the nested column as it was, so the null map fits
    rw [ih, withNested_leave, appendRange, hcheck]
    show _ = leave _ (l.appendRange r start count >>= _)
    cases l.appendRange r start count <;> rfl
  | case3 => rfl

theorem insertRow_eq (target source : Column) (index : Nat) :
    target.insertRow source index = leave target (target.appendRow source index) := by
  fun_cases insertRow target source index with
  | case1 l nulls r otherNulls e hcheck =>
    rw [appendRow, hcheck]
    rfl
  | case2 l nulls r otherNulls hcheck =>
    rw [insertRange_eq, withNested_leave, appendRow, hcheck]
    show _ = leave _ (l.appendRange r index 1 >>= _)
    cases l.appendRange r index 1 <;> rfl
  | case3 => rfl

theorem removeLast_eq (c : Column) (count : Nat) :
    c.removeLast count = leave c (c.popBack count) := by
  fun_induction removeLast c count with
  | case1 nested nulls count ih =>
    rw [ih, withNested_leave, popBack]
    cases nested.popBack count <;> rfl
  | case2 => rfl

end Column

end ResultSet
