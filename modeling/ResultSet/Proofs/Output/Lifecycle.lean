import ResultSet.Proofs.Output.Conversion

/-!
# The life of a pending batch

A batch under conversion is called in any order: it begins at positions, gets rows and columns,
is completed or failed.  `PendingBatch.run` is the batch after a sequence of calls, and
`PendingBatch.log` has the outcome of each.

* Columns in place: `extendRows` goes over the rows twice, and `extendRows_eq` shows that nothing
  is left of a column that is refused on the way.
* Rows: `gather` says which rows a batch has, from the calls that succeeded.  `call_rows` is the
  step and `run_rows` the run.
* States: a conversion is open until the first `complete` or `fail` (`isOpen_call`), and then only
  `fail` changes its state (`call_state_of_not_open`).  The runs are `run_state_of_open` and
  `run_state_of_not_open`.
* `run_lifecycle` puts this together with what a delivery does.
-/

namespace ResultSet

/-- A call on a batch under conversion. -/
inductive BatchCall where
  | begin (position : Nat)
  | pushRow (row : Bytes)
  | appendColumn (cells : List Bytes) (limit : Nat)
  | complete
  | fail
deriving DecidableEq

/-- Each row with its cell behind it.  Rows beyond the last cell stay as they are. -/
def withCells (rows cells : List Bytes) : List Bytes :=
  List.zipWith (· ++ ·) rows cells ++ rows.drop cells.length

/-- The rows of a batch, given those before a call and the outcome of it. -/
def gather (rows : List Bytes) : BatchCall × Except WriterError Unit → List Bytes
  | (.pushRow row, .ok ()) => rows ++ [row]
  | (.appendColumn cells _, .ok ()) => withCells rows cells
  | _ => rows

namespace PendingBatch

/-! ## Columns in place -/

theorem joinCells_eq (rows cells : List Bytes) : joinCells rows cells = withCells rows cells := by
  induction rows generalizing cells with
  | nil => cases cells <;> rfl
  | cons row rows ih =>
    cases cells with
    | nil => rfl
    | cons cell cells =>
      rw [joinCells, ih]
      rfl

/-- The size in a refusal is that of the first row that would be too long. -/
theorem outgrown_eq (limit : Nat) (rows cells : List Bytes) :
    outgrown limit rows cells =
      ((List.zipWith (· ++ ·) rows cells).find? (limit < ·.length)).map List.length := by
  induction rows generalizing cells with
  | nil => cases cells <;> rfl
  | cons row rows ih =>
    cases cells with
    | nil => rfl
    | cons cell cells =>
      rw [outgrown, List.zipWith_cons_cons, List.find?_cons, List.length_append]
      by_cases h : limit < row.length + cell.length
      · rw [if_pos h, decide_eq_true h, Option.map_some, List.length_append]
      · rw [if_neg h, decide_eq_false h, ih]

/-- Looking for room changes no row, wherever it stops. -/
theorem visitRows_checkRoom (limit : Nat) (rows cells : List Bytes) :
    visitRows (checkRoom limit) rows cells =
      (rows, match outgrown limit rows cells with
        | some size => .error (.encoding (.tooLarge size limit))
        | none => .ok ()) := by
  induction rows generalizing cells with
  | nil => cases cells <;> rfl
  | cons row rows ih =>
    cases cells with
    | nil => rfl
    | cons cell cells =>
      rw [visitRows, outgrown, checkRoom]
      by_cases h : limit < row.length + cell.length
      · simp only [if_pos h]
      · simp only [if_neg h, ih]

/-- Putting the cells behind their rows goes through to the end. -/
theorem visitRows_extendRow (rows cells : List Bytes) :
    visitRows extendRow rows cells = (joinCells rows cells, .ok ()) := by
  induction rows generalizing cells with
  | nil => cases cells <;> rfl
  | cons row rows ih =>
    cases cells with
    | nil => rfl
    | cons cell cells =>
      rw [visitRows, extendRow, ih]
      rfl

/-- A column is put behind all rows, or the batch stays as it was. -/
theorem extendRows_eq (p : PendingBatch) (cells : List Bytes) (limit : Nat) :
    p.extendRows cells limit =
      match p.appendColumn cells limit with
      | .ok extended => (extended, .ok ())
      | .error e => (p, .error e) := by
  rw [extendRows, appendColumn, visitRows_checkRoom]
  cases outgrown limit p.batch.rows cells with
  | some size => rfl
  | none =>
    dsimp only
    rw [visitRows_extendRow]

theorem extendRows_of_fits {p : PendingBatch} {cells : List Bytes} {limit : Nat}
    (h : ∀ line ∈ List.zipWith (· ++ ·) p.batch.rows cells, line.length ≤ limit) :
    p.extendRows cells limit =
      ({ p with batch := ⟨withCells p.batch.rows cells⟩ }, .ok ()) := by
  have hnone : outgrown limit p.batch.rows cells = none := by
    rw [outgrown_eq, Option.map_eq_none_iff, List.find?_eq_none]
    intro line hline
    simpa using h line hline
  rw [extendRows_eq, appendColumn, hnone, joinCells_eq]

theorem extendRows_of_outgrown {p : PendingBatch} {cells : List Bytes} {limit : Nat} {line : Bytes}
    (h : (List.zipWith (· ++ ·) p.batch.rows cells).find? (limit < ·.length) = some line) :
    p.extendRows cells limit = (p, .error (.encoding (.tooLarge line.length limit))) := by
  have hsome : outgrown limit p.batch.rows cells = some line.length := by
    rw [outgrown_eq, h, Option.map_some]
  rw [extendRows_eq, appendColumn, hsome]

theorem extendRows_state (p : PendingBatch) (cells : List Bytes) (limit : Nat) :
    (p.extendRows cells limit).1.state = p.state := by
  rw [extendRows_eq]
  cases happend : p.appendColumn cells limit with
  | error e => rfl
  | ok extended =>
    obtain ⟨-, rfl⟩ := appendColumn_cases happend
    rfl

/-! ## Calls -/

/-- What a call leaves of the batch, and its outcome. -/
def call (p : PendingBatch) : BatchCall → PendingBatch × Except WriterError Unit
  | .begin position => (p.begin position, .ok ())
  | .pushRow row => (p.pushRow row, .ok ())
  | .appendColumn cells limit => p.extendRows cells limit
  | .complete => (p.complete, .ok ())
  | .fail => (p.fail, .ok ())

/-- The batch after a sequence of calls. -/
def run (p : PendingBatch) (calls : List BatchCall) : PendingBatch :=
  calls.foldl (fun p c => (p.call c).1) p

/-- A sequence of calls with the outcome of each. -/
def log (p : PendingBatch) : List BatchCall → List (BatchCall × Except WriterError Unit)
  | [] => []
  | c :: calls => (c, (p.call c).2) :: (p.call c).1.log calls

theorem run_cons (p : PendingBatch) (c : BatchCall) (calls : List BatchCall) :
    p.run (c :: calls) = (p.call c).1.run calls := rfl

/-! ## Rows -/

/-- A call leaves the rows that `gather` says. -/
theorem call_rows (p : PendingBatch) (c : BatchCall) :
    (p.call c).1.batch.rows = gather p.batch.rows (c, (p.call c).2) := by
  cases c with
  | begin position => exact congrArg Batch.rows (begin_batch p position)
  | pushRow row => rfl
  | appendColumn cells limit =>
    show (p.extendRows cells limit).1.batch.rows =
      gather p.batch.rows (.appendColumn cells limit, (p.extendRows cells limit).2)
    rw [extendRows_eq]
    cases happend : p.appendColumn cells limit with
    | error e => rfl
    | ok extended =>
      obtain ⟨-, rfl⟩ := appendColumn_cases happend
      exact joinCells_eq p.batch.rows cells
  | complete => exact congrArg Batch.rows (complete_batch p)
  | fail => rfl

theorem run_rows (p : PendingBatch) (calls : List BatchCall) :
    (p.run calls).batch.rows = (p.log calls).foldl gather p.batch.rows := by
  induction calls generalizing p with
  | nil => rfl
  | cons c calls ih => rw [run_cons, ih, call_rows, log, List.foldl_cons]

/-! ## States -/

theorem isOpen_congr {p q : PendingBatch} (h : p.state = q.state) : p.isOpen = q.isOpen := by
  rw [isOpen, h, isOpen]

/-- A conversion stays open until it is completed or fails. -/
theorem isOpen_call {p : PendingBatch} (h : p.isOpen = true) {c : BatchCall}
    (hcomplete : c ≠ .complete) (hfail : c ≠ .fail) : (p.call c).1.isOpen = true := by
  cases c with
  | begin position => exact isOpen_begin h position
  | pushRow row => exact isOpen_pushRow h row
  | appendColumn cells limit => exact (isOpen_congr (p.extendRows_state cells limit)).trans h
  | complete => exact absurd rfl hcomplete
  | fail => exact absurd rfl hfail

/-- Only `fail` changes the state of a conversion that has ended. -/
theorem call_state_of_not_open {p : PendingBatch} (h : p.isOpen = false) (c : BatchCall) :
    (p.call c).1.state = if c = .fail then .failed else p.state := by
  cases c with
  | begin position =>
    show (p.begin position).state = p.state
    rw [begin, h]
    rfl
  | pushRow row => rfl
  | appendColumn cells limit => exact p.extendRows_state cells limit
  | complete =>
    show p.complete.state = p.state
    rw [complete, h]
    rfl
  | fail => rfl

/-- A conversion that has ended stays as it is, or has failed in the end. -/
theorem run_state_of_not_open {p : PendingBatch} (h : p.isOpen = false) (calls : List BatchCall) :
    (p.run calls).state = if .fail ∈ calls then .failed else p.state := by
  induction calls generalizing p with
  | nil => rfl
  | cons c calls ih =>
    have hstate := call_state_of_not_open h c
    rw [run_cons]
    by_cases hc : c = .fail
    · rw [if_pos hc] at hstate
      have hended : (p.call c).1.isOpen = false := by rw [isOpen, hstate]
      rw [ih hended, hstate, ite_self, if_pos (List.mem_cons.2 (.inl hc.symm))]
    · rw [if_neg hc] at hstate
      rw [ih ((isOpen_congr hstate).trans h), hstate]
      simp only [List.mem_cons, Ne.symm hc, false_or]

/-- An open conversion has failed after calls with a `fail` among them, and is complete after
calls with a `complete` and no `fail`, whatever their order. -/
theorem run_state_of_open {p : PendingBatch} (h : p.isOpen = true) (calls : List BatchCall) :
    ((p.run calls).state = .failed ↔ .fail ∈ calls) ∧
      ((p.run calls).state = .complete ↔ .complete ∈ calls ∧ .fail ∉ calls) := by
  induction calls generalizing p with
  | nil =>
    have hfailed : p.state ≠ .failed := fun hstate => by simp [isOpen, hstate] at h
    have hcomplete : p.state ≠ .complete := fun hstate => by simp [isOpen, hstate] at h
    simp [run, hfailed, hcomplete]
  | cons c calls ih =>
    rw [run_cons]
    -- the conversion ends with the first of the two calls, and what follows is known by then
    by_cases hcomplete : c = .complete
    · subst hcomplete
      have hstate : (p.call .complete).1.state = .complete := complete_state h
      rw [run_state_of_not_open (by rw [isOpen, hstate]), hstate]
      by_cases hfail : .fail ∈ calls <;> simp [hfail]
    by_cases hfail : c = .fail
    · subst hfail
      have hstate : (p.call .fail).1.state = .failed := rfl
      rw [run_state_of_not_open (by rw [isOpen, hstate]), hstate]
      simp
    · simpa only [List.mem_cons, Ne.symm hcomplete, Ne.symm hfail, false_or] using
        ih (isOpen_call h hcomplete hfail)

/-! ## Delivery -/

theorem deliver_of_complete {p : PendingBatch} (h : p.state = .complete) (sink : Sink) :
    p.deliver sink =
      (match sink.refuse sink.offers p.batch with
        | none => .ok .delivered
        | some e => .error (.delivery e),
        { sink with offers := sink.offers ++ [⟨p.batch, sink.refuse sink.offers p.batch⟩] }) := by
  rw [deliver, if_pos h, Sink.offer]
  cases sink.refuse sink.offers p.batch <;> rfl

theorem deliver_of_not_complete {p : PendingBatch} (h : p.state ≠ .complete) (sink : Sink) :
    p.deliver sink = (.error (.incompleteBatch p.state), sink) := by
  rw [deliver, if_neg h]

/-- How a batch comes about: for rows to be pushed, or for columns to be appended. -/
inductive Made : PendingBatch → Prop where
  | new : Made new
  | withRows (rows : Nat) : Made (withRows rows)

theorem Made.isOpen {p : PendingBatch} (h : Made p) : p.isOpen = true := by
  cases h <;> rfl

/-- After any calls a batch has the rows that the successful ones have gathered, and a column that
does not fit leaves the whole batch as it was.  A failed batch stays failed, and a completed one
can only fail.  A sink is offered the gathered rows if `complete` was called and `fail` was not;
otherwise it is not asked, and the answer names the state. -/
theorem run_lifecycle {start : PendingBatch} (hstart : Made start) (calls : List BatchCall) :
    let p := start.run calls
    let gathered : Batch := ⟨(start.log calls).foldl gather start.batch.rows⟩
    p.batch = gathered ∧
      (∀ cells limit, let lines := List.zipWith (· ++ ·) gathered.rows cells
        ((∀ line ∈ lines, line.length ≤ limit) →
          p.call (.appendColumn cells limit) =
            ({ p with batch := ⟨withCells gathered.rows cells⟩ }, .ok ())) ∧
        ∀ line, lines.find? (limit < ·.length) = some line →
          p.call (.appendColumn cells limit) =
            (p, .error (.encoding (.tooLarge line.length limit)))) ∧
      (∀ after, (p.state = .failed → (p.run after).state = .failed) ∧
        (p.state = .complete →
          (p.run after).state = .complete ∨ (p.run after).state = .failed)) ∧
      ∀ sink : Sink,
        (.complete ∈ calls ∧ .fail ∉ calls →
          p.deliver sink =
            (match sink.refuse sink.offers gathered with
              | none => .ok .delivered
              | some e => .error (.delivery e),
              { sink with
                offers := sink.offers ++ [⟨gathered, sink.refuse sink.offers gathered⟩] })) ∧
        (¬(.complete ∈ calls ∧ .fail ∉ calls) →
          p.deliver sink = (.error (.incompleteBatch p.state), sink)) := by
  intro p gathered
  have hbatch : p.batch = gathered := congrArg Batch.mk (run_rows start calls)
  have hcomplete := (run_state_of_open hstart.isOpen calls).2
  refine ⟨hbatch, fun cells limit => ⟨fun hfits => ?_, fun line hline => ?_⟩,
    fun after => ⟨fun hfailed => ?_, fun hdone => ?_⟩,
    fun sink => ⟨fun hcalls => ?_, fun hcalls => ?_⟩⟩
  · rw [← hbatch] at hfits ⊢
    exact extendRows_of_fits hfits
  · rw [← hbatch] at hline
    exact extendRows_of_outgrown hline
  · rw [run_state_of_not_open (by rw [isOpen, hfailed]), hfailed, ite_self]
  · rw [run_state_of_not_open (by rw [isOpen, hdone]), hdone]
    split
    · exact .inr rfl
    · exact .inl rfl
  · rw [← hbatch]
    exact deliver_of_complete (hcomplete.2 hcalls) sink
  · exact deliver_of_not_complete (fun h => hcalls (hcomplete.1 h)) sink

/-- The second of two rows has no room for its second cell, so the first one does not get its own
either.  A row that is pushed after the end is delivered all the same. -/
theorem run_lifecycle_refused :
    let wide : BatchCall := .appendColumn [[1, 0x63], [2, 0x64, 0x65]] 4
    let before : List BatchCall := [.begin 0, .appendColumn [[1, 0x61], [1, 0x62]] 4, .begin 1]
    let calls := before ++ [wide, .complete, .begin 2, .pushRow [0xFB]]
    let sink := Sink.new fun _ _ => none
    Made (withRows 2) ∧ (.complete ∈ calls ∧ .fail ∉ calls) ∧
      ((withRows 2).run before).call wide =
        ((withRows 2).run before, .error (.encoding (.tooLarge 5 4))) ∧
      ((withRows 2).run calls).deliver sink =
        (.ok .delivered,
          { sink with offers := [⟨⟨[[1, 0x61], [1, 0x62], [0xFB]]⟩, none⟩] }) := by
  intro wide before calls sink
  have hcalls : .complete ∈ calls ∧ .fail ∉ calls := by decide
  obtain ⟨-, hcolumn, -, -⟩ := run_lifecycle (.withRows 2) before
  obtain ⟨-, -, -, hdelivered⟩ := run_lifecycle (.withRows 2) calls
  exact ⟨.withRows 2, hcalls, (hcolumn _ 4).2 [1, 0x62, 2, 0x64, 0x65] rfl,
    (hdelivered sink).1 hcalls⟩

end PendingBatch

end ResultSet
