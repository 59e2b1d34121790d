import ResultSet.Proofs.Row.Cell

/-!
# Sessions on a row

A row is written by a sequence of pushes and resets, any of the pushes may fail.
`RowBuffer.run` is the row after such a sequence, `RowBuffer.log` has the answer to
each call.

* `keep` says which values are in the row: the pushes that succeeded since the
  last reset.
* `RowBuffer.Holds` is the invariant: the row is the cells of these values and
  stays within its limit.  `holds_call` is the step and `holds_run` the run.
* `run_decodes` reads the row back after any session, and says exactly when the
  next push fails and that nothing is left of one that failed.
-/

namespace ResultSet

/-- A call on a row that is being written. -/
inductive RowCall where
  | reset
  | push (v : WireValue)

/-- The values in a row, given those before a call and the answer to it. -/
def keep (values : List WireValue) : RowCall × Except RowError Unit → List WireValue
  | (.reset, _) => []
  | (.push v, .ok ()) => values ++ [v]
  | (.push _, .error _) => values

namespace RowBuffer

/-! ## Calls -/

/-- The row after a call, and the answer to it.  A push that fails gives back the
row as it was. -/
def call (b : RowBuffer) : RowCall → RowBuffer × Except RowError Unit
  | .reset => (RowEncoder.reset b, .ok ())
  | .push v =>
    match RowEncoder.push v b with
    | .ok b => (b, .ok ())
    | .error e => (b, .error e)

/-- The row after a sequence of calls. -/
def run (b : RowBuffer) (calls : List RowCall) : RowBuffer :=
  calls.foldl (fun b c => (b.call c).1) b

/-- A sequence of calls with the answer to each. -/
def log (b : RowBuffer) : List RowCall → List (RowCall × Except RowError Unit)
  | [] => []
  | c :: calls => (c, (b.call c).2) :: (b.call c).1.log calls

theorem run_cons (b : RowBuffer) (c : RowCall) (calls : List RowCall) :
    b.run (c :: calls) = (b.call c).1.run calls := rfl

theorem run_append (b : RowBuffer) (before after : List RowCall) :
    b.run (before ++ after) = (b.run before).run after := by
  rw [run, List.foldl_append]
  rfl

theorem log_append (b : RowBuffer) (before after : List RowCall) :
    b.log (before ++ after) = b.log before ++ (b.run before).log after := by
  induction before generalizing b with
  | nil => rfl
  | cons c before ih =>
    rw [List.cons_append, log, log, ih, List.cons_append, run_cons]

/-- A push that stays within the limit appends a cell. -/
theorem call_push_of_le {b : RowBuffer} {v : WireValue}
    (h : b.bytes.length + (encodeCell v.text).length ≤ b.limit) :
    b.call (.push v) = (⟨b.bytes ++ encodeCell v.text, b.limit⟩, .ok ()) := by
  have hpush : RowEncoder.push v b = _ := RowBuffer.push_eq b v
  rw [if_pos h] at hpush
  rw [call, hpush]

/-- A push beyond the limit changes nothing. -/
theorem call_push_of_lt {b : RowBuffer} {v : WireValue}
    (h : b.limit < b.bytes.length + (encodeCell v.text).length) :
    b.call (.push v) =
      (b, .error (.tooLarge (b.bytes.length + (encodeCell v.text).length) b.limit)) := by
  have hpush : RowEncoder.push v b = _ := RowBuffer.push_eq b v
  rw [if_neg (by omega)] at hpush
  rw [call, hpush]

/-! ## The invariant -/

/-- The row consists of the cells of some values and stays within its limit. -/
structure Holds (b : RowBuffer) (values : List WireValue) : Prop where
  bytes_eq : b.bytes = encodeCells (values.map WireValue.text)
  within : b.bytes.length ≤ b.limit

theorem holds_empty (limit : Nat) : (empty limit).Holds [] :=
  ⟨rfl, Nat.zero_le limit⟩

theorem call_limit (b : RowBuffer) (c : RowCall) : (b.call c).1.limit = b.limit := by
  cases c with
  | reset => rfl
  | push v =>
    by_cases h : b.bytes.length + (encodeCell v.text).length ≤ b.limit
    · rw [call_push_of_le h]
    · rw [call_push_of_lt (by omega)]

theorem run_limit (b : RowBuffer) (calls : List RowCall) : (b.run calls).limit = b.limit := by
  induction calls generalizing b with
  | nil => rfl
  | cons c calls ih => rw [run_cons, ih, call_limit]

/-- A call leaves the values in the row that `keep` says. -/
theorem holds_call {b : RowBuffer} {values : List WireValue} (h : b.Holds values) (c : RowCall) :
    (b.call c).1.Holds (keep values (c, (b.call c).2)) := by
  cases c with
  | reset => exact holds_empty b.limit
  | push v =>
    by_cases hle : b.bytes.length + (encodeCell v.text).length ≤ b.limit
    · rw [call_push_of_le hle]
      refine ⟨?_, ?_⟩
      · show b.bytes ++ encodeCell v.text = encodeCells ((values ++ [v]).map WireValue.text)
        rw [h.bytes_eq, List.map_append, encodeCells_append, List.map_cons, List.map_nil,
          encodeCells_cons, encodeCells_nil, List.append_nil]
      · show (b.bytes ++ encodeCell v.text).length ≤ b.limit
        rw [List.length_append]
        exact hle
    · rw [call_push_of_lt (by omega)]
      exact h

/-- After any session the row holds the values of the pushes that succeeded since
the last reset. -/
theorem holds_run {b : RowBuffer} {values : List WireValue} (h : b.Holds values)
    (calls : List RowCall) : (b.run calls).Holds ((b.log calls).foldl keep values) := by
  induction calls generalizing b values with
  | nil => exact h
  | cons c calls ih => exact ih (holds_call h c)

/-- Only values that were pushed are in the row. -/
theorem mem_foldl_keep {b : RowBuffer} {calls : List RowCall} {values : List WireValue}
    {v : WireValue} (h : v ∈ (b.log calls).foldl keep values) :
    v ∈ values ∨ RowCall.push v ∈ calls := by
  induction calls generalizing b values with
  | nil => exact Or.inl h
  | cons c calls ih =>
    rcases ih h with hkept | hlater
    · cases c with
      | reset => exact absurd hkept List.not_mem_nil
      | push w =>
        cases hanswer : (b.call (.push w)).2 with
        | error e =>
          rw [hanswer] at hkept
          exact Or.inl hkept
        | ok _ =>
          rw [hanswer] at hkept
          rcases List.mem_append.1 hkept with hold | hnew
          · exact Or.inl hold
          · rw [List.mem_singleton.1 hnew]
            exact Or.inr List.mem_cons_self
    · exact Or.inr (List.mem_cons_of_mem _ hlater)

/-! ## Reading the row back -/

/-- After any session the row stays within its limit and is read back as the
values of the pushes that succeeded since the last reset.  The next push fails
exactly if the row would outgrow the limit with its cell, it reports the size that
the row would have had, and the session goes on as if it had not been made. -/
theorem run_decodes (limit : Nat) (calls : List RowCall)
    (hshort : ∀ v, RowCall.push v ∈ calls → FitsMemory v.text) :
    let b := (empty limit).run calls
    b.bytes.length ≤ limit ∧
      decodeRow b.bytes = .ok ((((empty limit).log calls).foldl keep []).map WireValue.text) ∧
      ∀ v, let size := b.bytes.length + (encodeCell v.text).length
        (size ≤ limit → b.call (.push v) = (⟨b.bytes ++ encodeCell v.text, limit⟩, .ok ())) ∧
        (limit < size → b.call (.push v) = (b, .error (.tooLarge size limit)) ∧
          ∀ after, (empty limit).run (calls ++ .push v :: after) =
              (empty limit).run (calls ++ after) ∧
            (empty limit).log (calls ++ after) = (empty limit).log calls ++ b.log after ∧
            (empty limit).log (calls ++ .push v :: after) =
              (empty limit).log calls ++
                (.push v, .error (.tooLarge size limit)) :: b.log after) := by
  intro b
  have hholds : b.Holds (((empty limit).log calls).foldl keep []) :=
    holds_run (holds_empty limit) calls
  have hlimit : b.limit = limit := run_limit (empty limit) calls
  refine ⟨?_, ?_, ?_⟩
  · rw [← hlimit]
    exact hholds.within
  · rw [hholds.bytes_eq]
    refine decodeRow_encodeCells _ fun value hvalue => ?_
    obtain ⟨v, hv, rfl⟩ := List.mem_map.1 hvalue
    rcases mem_foldl_keep hv with hnone | hpushed
    · exact absurd hnone List.not_mem_nil
    · exact hshort v hpushed
  · intro v size
    refine ⟨fun hle => ?_, fun hlt => ?_⟩
    · rw [call_push_of_le (by rw [hlimit]; exact hle), hlimit]
    · have hfailed : b.call (.push v) = (b, .error (.tooLarge size limit)) := by
        rw [call_push_of_lt (by rw [hlimit]; exact hlt), hlimit]
      refine ⟨hfailed, fun after => ⟨?_, log_append _ _ _, ?_⟩⟩
      · rw [run_append, run_append, run_cons]
        show (b.call (.push v)).1.run after = b.run after
        rw [hfailed]
      · rw [log_append]
        show _ ++ ((.push v, (b.call (.push v)).2) :: (b.call (.push v)).1.log after) = _
        rw [hfailed]

/-- A row of six bytes: a string that fits, one that does not, and two nulls that
fill it up. -/
theorem run_decodes_filled :
    let calls : List RowCall :=
      [.push (.bytes [0xFB, 0xFF, 0x00]), .push (.bytes [0x61, 0x62]), .push .null, .push .null]
    (∀ v, RowCall.push v ∈ calls → FitsMemory v.text) ∧
      ((empty 6).run calls).bytes = [3, 0xFB, 0xFF, 0x00, 0xFB, 0xFB] ∧
      decodeRow ((empty 6).run calls).bytes = .ok [some [0xFB, 0xFF, 0x00], none, none] ∧
      ((empty 6).run calls).call (.push (.bytes [])) =
        ((empty 6).run calls, .error (.tooLarge 7 6)) := by
  intro calls
  have hshort : ∀ v, RowCall.push v ∈ calls → FitsMemory v.text := by
    intro v hv bytes hbytes
    simp only [calls, List.mem_cons, List.not_mem_nil, or_false, RowCall.push.injEq] at hv
    rcases hv with rfl | rfl | rfl | rfl
    · cases hbytes
      decide
    · cases hbytes
      decide
    · cases hbytes
    · cases hbytes
  have h := run_decodes 6 calls hshort
  exact ⟨hshort, rfl, h.2.1, ((h.2.2 (.bytes [])).2 (by decide)).1⟩

end RowBuffer

end ResultSet
