import ResultSet.Proofs.Column.Packing
import ResultSet.Proofs.Text.Order

/-!
# Runs on string columns

String columns are kept in registers that all start empty, and any sequence of calls is
made on them.  A call may read another register, and it may be refused.

* `StringCall.Suits` says when the arguments of a call are right, and
  `StringCall.values` what the call does to a plain list of values.
* `perform_of_suits` and `perform_of_not_suits` compare one call on columns with the same
  call on lists.
* `run_eq` is the run: the registers always hold the columns of the lists.
* `run_refines` reads the layout, the values, the answers, the order and equality off
  it.
-/

namespace ResultSet

/-! ## Calls -/

/-- A call on a string column.  `source` is the register of the column that rows come
from. -/
inductive StringCall where
  | push (value : Bytes)
  | pushDefault
  | pushField (f : Field)
  | appendRow (source index : Nat)
  | appendRange (source start count : Nat)
  | extend (more : List Bytes)
  | popBack (count : Nat)
  | clear
  | resized (size : Nat)
  | select (s : RowSelection)
  | collect (fresh : List Bytes)

/-- A call on the column in register `on`.  The result goes to the register `into`, which
is `on` itself when a column is changed in place. -/
structure StringStep where
  on : Nat
  into : Nat
  call : StringCall

/-- The registers with one of them set. -/
def setRegister {α : Type} (registers : Nat → α) (into : Nat) (v : α) : Nat → α :=
  fun r => if r = into then v else registers r

theorem map_setRegister {α β : Type} (f : α → β) (registers : Nat → α) (into : Nat) (v : α) :
    (fun r => f (setRegister registers into v r)) =
      setRegister (fun r => f (registers r)) into (f v) := by
  funext r
  unfold setRegister
  split <;> rfl

namespace StringCall

/-- The call on columns. -/
def perform (columns : Nat → StringColumn) (c : StringColumn) :
    StringCall → Except ColumnError StringColumn
  | .push value => .ok (c.push value)
  | .pushDefault => .ok c.pushDefault
  | .pushField f => c.pushField f
  | .appendRow source index => c.appendRow (columns source) index
  | .appendRange source start count => c.appendRange (columns source) start count
  | .extend more => .ok (c.extend more)
  | .popBack count => c.popBack count
  | .clear => .ok .empty
  | .resized size => .ok (c.resized size)
  | .select s => Layout.select c s
  | .collect fresh => .ok (.ofList fresh)

/-- The arguments are within bounds, of the right length and of the right kind. -/
def Suits (lists : Nat → List Bytes) (values : List Bytes) : StringCall → Prop
  | .pushField f => f.kind = .string
  | .appendRow source index => index < (lists source).length
  | .appendRange source start count => start + count ≤ (lists source).length
  | .popBack count => count ≤ values.length
  | .select s => s.Suits values.length
  | _ => True

instance (lists : Nat → List Bytes) (values : List Bytes) (call : StringCall) :
    Decidable (call.Suits lists values) := by
  cases call <;> unfold Suits <;> infer_instance

/-- The call on lists of values. -/
def values (lists : Nat → List Bytes) (values : List Bytes) : StringCall → List Bytes
  | .push value => values ++ [value]
  | .pushDefault => values ++ [[]]
  | .pushField (.string value) => values ++ [value]
  | .pushField _ => values
  | .appendRow source index => values ++ ((lists source).drop index).take 1
  | .appendRange source start count => values ++ ((lists source).drop start).take count
  | .extend more => values ++ more
  | .popBack count => values.take (values.length - count)
  | .clear => []
  | .resized size => values.take size ++ List.replicate (size - values.length) []
  | .select s => (s.indices values.length).filterMap fun i => values[i]?
  | .collect fresh => fresh

end StringCall

namespace StringColumn

/-! ## One call -/

theorem resized_ofList (values : List Bytes) (size : Nat) :
    (ofList values).resized size =
      ofList (values.take size ++ List.replicate (size - values.length) []) := by
  rw [resized, length_ofList]
  split
  · rename_i hle
    rw [truncate_ofList values hle, Nat.sub_eq_zero_of_le hle, List.replicate_zero,
      List.append_nil]
  · rename_i hlt
    rw [extend_ofList, List.take_of_length_le (by omega)]

/-- A call whose arguments are right does to the columns what it does to the lists. -/
theorem perform_of_suits {call : StringCall} {lists : Nat → List Bytes} {values : List Bytes}
    (h : call.Suits lists values) :
    call.perform (fun r => ofList (lists r)) (ofList values) =
      .ok (ofList (call.values lists values)) := by
  cases call with
  | push value => exact congrArg Except.ok (extend_ofList values [value])
  | pushDefault => exact congrArg Except.ok (extend_ofList values [[]])
  | pushField f =>
    cases f with
    | string value => exact pushField_ofList values value
    | _ => cases h
  | appendRow source index => exact appendRow_ofList values (lists source) h
  | appendRange source start count => exact appendRange_ofList values (lists source) h
  | extend more => exact congrArg Except.ok (extend_ofList values more)
  | popBack count => exact popBack_ofList values h
  | clear => rfl
  | resized size => exact congrArg Except.ok (resized_ofList values size)
  | select s => exact select_ofList h
  | collect fresh => rfl

/-- Any other call is refused. -/
theorem perform_of_not_suits {call : StringCall} {lists : Nat → List Bytes}
    {values : List Bytes} (h : ¬call.Suits lists values) :
    ∃ e, call.perform (fun r => ofList (lists r)) (ofList values) = .error e := by
  cases call with
  | pushField f => exact ⟨_, pushField_of_kind h _⟩
  | appendRow source index =>
    have hindex : ¬index < (lists source).length := h
    refine ⟨.index index (lists source).length, ?_⟩
    rw [StringCall.perform, appendRow, Selection.checkIndex, length_ofList, if_neg hindex]
    rfl
  | appendRange source start count =>
    have hrange : ¬start + count ≤ (lists source).length := h
    refine ⟨.range start count (lists source).length, ?_⟩
    rw [StringCall.perform, appendRange, Selection.checkRange, length_ofList, if_neg hrange]
    rfl
  | popBack count =>
    have hpop : ¬count ≤ values.length := h
    refine ⟨.pop count values.length, ?_⟩
    rw [StringCall.perform, popBack, Selection.checkPop, length_ofList, if_neg hpop]
    rfl
  | select s =>
    obtain ⟨e, he⟩ := RowSelection.check_eq_error h
    exact ⟨e, select_of_error (by rw [length_ofList]; exact he)⟩
  | _ => exact absurd trivial h

/-! ## Runs -/

/-- The registers after a step, and the answer.  A refused call leaves all registers as
they were. -/
def step (columns : Nat → StringColumn) (s : StringStep) :
    (Nat → StringColumn) × Except ColumnError Unit :=
  match s.call.perform columns (columns s.on) with
  | .ok c => (setRegister columns s.into c, .ok ())
  | .error e => (columns, .error e)

/-- The columns after a sequence of steps. -/
def run (steps : List StringStep) : Nat → StringColumn :=
  steps.foldl (fun columns s => (step columns s).1) fun _ => empty

/-- The lists after a step. -/
def stepValues (lists : Nat → List Bytes) (s : StringStep) : Nat → List Bytes :=
  if s.call.Suits lists (lists s.on) then
    setRegister lists s.into (s.call.values lists (lists s.on))
  else lists

/-- The lists after a sequence of steps. -/
def runValues (steps : List StringStep) : Nat → List Bytes :=
  steps.foldl stepValues fun _ => []

theorem step_of_suits {lists : Nat → List Bytes} {s : StringStep}
    (h : s.call.Suits lists (lists s.on)) :
    step (fun r => ofList (lists r)) s = ((fun r => ofList (stepValues lists s r)), .ok ()) := by
  rw [step, perform_of_suits h, stepValues, if_pos h, map_setRegister]

theorem step_of_not_suits {lists : Nat → List Bytes} {s : StringStep}
    (h : ¬s.call.Suits lists (lists s.on)) :
    stepValues lists s = lists ∧ ∃ e, step (fun r => ofList (lists r)) s =
      ((fun r => ofList (lists r)), .error e) := by
  obtain ⟨e, he⟩ := perform_of_not_suits h
  refine ⟨by rw [stepValues, if_neg h], e, ?_⟩
  rw [step, he]

/-- The registers always hold the columns of the lists. -/
theorem run_eq (steps : List StringStep) :
    run steps = fun r => ofList (runValues steps r) := by
  have hrun (lists : Nat → List Bytes) :
      steps.foldl (fun columns s => (step columns s).1) (fun r => ofList (lists r)) =
        fun r => ofList (steps.foldl stepValues lists r) := by
    induction steps generalizing lists with
    | nil => rfl
    | cons s steps ih =>
      rw [List.foldl_cons, List.foldl_cons, ← ih]
      by_cases h : s.call.Suits lists (lists s.on)
      · rw [step_of_suits h]
      · obtain ⟨hsame, e, he⟩ := step_of_not_suits h
        rw [he, hsame]
  exact hrun fun _ => []

/-- After any sequence of calls, refused ones among them, every column is packed and
reads as the list that the same calls make of plain values.  The next call is refused
exactly if its arguments are out of bounds or of the wrong length or kind, and then
nothing changes.  Rows are compared byte by byte as their values are, and two columns are
equal exactly if they have the same values. -/
theorem run_refines (steps : List StringStep) :
    let columns := run steps
    let lists := runValues steps
    (∀ r, (columns r).Packed ∧ (columns r).toList = lists r ∧
        (columns r).length = (lists r).length ∧ ∀ row, (columns r).get? row = (lists r)[row]?) ∧
      (∀ s : StringStep,
        (s.call.Suits lists (lists s.on) → (step columns s).2 = .ok () ∧
          ∀ r, ((step columns s).1 r).toList =
            setRegister lists s.into (s.call.values lists (lists s.on)) r) ∧
        (¬s.call.Suits lists (lists s.on) → ∃ e, step columns s = (columns, .error e))) ∧
      ∀ (others : List StringStep) (r q : Nat),
        (∀ row otherRow v w, (lists r)[row]? = some v →
          (runValues others q)[otherRow]? = some w →
          ∃ order, (columns r).compareAt row (run others q) otherRow = some order ∧
            (order = .lt ↔ v < w) ∧ (order = .eq ↔ v = w) ∧ (order = .gt ↔ w < v)) ∧
        (columns r = run others q ↔ lists r = runValues others q) := by
  intro columns lists
  have hcolumns : columns = fun r => ofList (lists r) := run_eq steps
  refine ⟨fun r => ?_, fun s => ⟨fun hsuits => ?_, fun hsuits => ?_⟩, fun others r q => ⟨?_, ?_⟩⟩
  · rw [hcolumns]
    exact ⟨packed_ofList _, toList_ofList _, length_ofList _, get?_ofList _⟩
  · rw [hcolumns, step_of_suits hsuits]
    refine ⟨rfl, fun r => ?_⟩
    rw [toList_ofList, stepValues, if_pos hsuits]
  · rw [hcolumns]
    exact (step_of_not_suits hsuits).2
  · intro row otherRow v w hv hw
    refine ⟨compareBytes v w, ?_, compareBytes_eq_lt, compareBytes_eq_eq,
      compareBytes_eq_gt.trans compareBytes_eq_lt⟩
    rw [run_eq others, hcolumns, compareAt, get?_ofList, get?_ofList, hv, hw]
  · rw [run_eq others, hcolumns]
    refine ⟨fun h => ?_, fun h => congrArg ofList h⟩
    have hsame : ofList (lists r) = ofList (runValues others q) := h
    rw [← toList_ofList (lists r), hsame, toList_ofList]

end StringColumn

end ResultSet
