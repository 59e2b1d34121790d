import ResultSet.Number.Power

/-!
# Integers of a fixed width

A result column stores words, but every rule about a stored value is a rule
about the integer it stands for.  `Signed bits` and `Unsigned bits` are those
integers, packed with the fact that they fit the word.

* `Signed.ofInt?` and `Unsigned.ofInt?` narrow an integer and refuse one that
  does not fit.
* `Signed.wrap` reduces an integer to the word.
* `Signed.widen` and `Unsigned.widen` move a value to a wider word without
  changing it.
-/

namespace ResultSet

/-- An integer that a two's complement word of `bits` bits holds. -/
structure Signed (bits : Nat) where
  val : Int
  min_le : -((2 ^ (bits - 1) : Nat) : Int) ≤ val
  lt_max : val < ((2 ^ (bits - 1) : Nat) : Int)
deriving DecidableEq

/-- A natural number that a word of `bits` bits holds. -/
structure Unsigned (bits : Nat) where
  val : Nat
  lt_max : val < 2 ^ bits
deriving DecidableEq

namespace Signed

variable {bits : Nat}

/-- The value as a signed word, unless it does not fit. -/
def ofInt? (bits : Nat) (v : Int) : Option (Signed bits) :=
  if h : -((2 ^ (bits - 1) : Nat) : Int) ≤ v ∧ v < ((2 ^ (bits - 1) : Nat) : Int) then
    some ⟨v, h.1, h.2⟩
  else
    none

theorem ofInt?_val (v : Signed bits) : ofInt? bits v.val = some v := by
  unfold ofInt?
  rw [dif_pos ⟨v.min_le, v.lt_max⟩]

theorem val_of_ofInt? {v : Int} {w : Signed bits} (h : ofInt? bits v = some w) :
    w.val = v := by
  simp only [ofInt?] at h
  split at h
  · cases h; rfl
  · simp at h

theorem ofInt?_eq_some_iff {v : Int} {w : Signed bits} : ofInt? bits v = some w ↔ w.val = v :=
  ⟨val_of_ofInt?, fun h => h ▸ ofInt?_val w⟩

/-! ### Natural numbers as words -/

theorem ofInt?_of_lt (bits : Nat) {n : Nat} (h : n < 2 ^ (bits - 1)) :
    ∃ w : Signed bits, ofInt? bits (n : Int) = some w ∧ w.val = n := by
  have hword : (⟨n, by omega, by omega⟩ : Signed bits).val = n := rfl
  exact ⟨_, ofInt?_eq_some_iff.2 hword, hword⟩

theorem ofInt?_of_not_lt {n : Nat} (h : ¬n < 2 ^ (bits - 1)) : ofInt? bits (n : Int) = none := by
  rw [ofInt?, dif_neg (by omega)]

/-- A natural number that is a word is one with either sign. -/
theorem exists_ofInt?_signed (bits : Nat) {n : Nat} (h : n < 2 ^ (bits - 1)) (negative : Bool) :
    ∃ w, ofInt? bits (if negative then -(n : Int) else n) = some w := by
  cases negative with
  | false =>
    obtain ⟨w, hw, -⟩ := ofInt?_of_lt bits h
    exact ⟨w, hw⟩
  | true => exact ⟨⟨-n, by omega, by omega⟩, ofInt?_eq_some_iff.2 rfl⟩

/-- A sum of natural numbers is a word if it is one in two steps. -/
theorem ofInt?_bind_add (bits m n : Nat) :
    ((ofInt? bits (m : Int)).bind fun w => ofInt? bits (w.val + n)) =
      ofInt? bits ((m + n : Nat) : Int) := by
  by_cases hm : m < 2 ^ (bits - 1)
  · obtain ⟨w, hw, hval⟩ := ofInt?_of_lt bits hm
    rw [hw, Option.bind_some, hval, Int.natCast_add]
  · rw [ofInt?_of_not_lt hm, ofInt?_of_not_lt (by omega)]
    rfl

/-- Zero fits every width. -/
def zero (bits : Nat) : Signed bits :=
  ⟨0, by have := Nat.two_pow_pos (bits - 1); omega,
    by have := Nat.two_pow_pos (bits - 1); omega⟩

instance : Inhabited (Signed bits) := ⟨zero bits⟩

/-- The value reduced to the word: the integer of the word that differs from it
by a multiple of `2 ^ bits`. -/
def wrap (bits : Nat) (v : Int) : Signed bits :=
  (ofInt? bits (v.bmod (2 ^ bits))).getD (zero bits)

theorem wrap_val (hbits : 0 < bits) (v : Signed bits) : wrap bits v.val = v := by
  have hhalf : 2 ^ bits = 2 * 2 ^ (bits - 1) := by
    rw [← Nat.pow_add_one', Nat.sub_one_add_one (Nat.ne_of_gt hbits)]
  have hmin := v.min_le
  have hmax := v.lt_max
  have hbmod : v.val.bmod (2 ^ bits) = v.val := by
    rw [hhalf]
    exact Int.bmod_eq_of_le (by omega) (by omega)
  rw [wrap, hbmod, ofInt?_val, Option.getD_some]

/-- A wider word holds every value of a narrower one. -/
def widen {narrow wide : Nat} (h : narrow ≤ wide) (v : Signed narrow) : Signed wide :=
  have hp : 2 ^ (narrow - 1) ≤ 2 ^ (wide - 1) :=
    Nat.pow_le_pow_right (by decide) (by omega)
  ⟨v.val, by have := v.min_le; omega, by have := v.lt_max; omega⟩

@[simp] theorem widen_val {narrow wide : Nat} (h : narrow ≤ wide) (v : Signed narrow) :
    (widen h v).val = v.val := rfl

@[ext] theorem ext {v w : Signed bits} (h : v.val = w.val) : v = w := by
  cases v; cases w; cases h; rfl

end Signed

namespace Unsigned

variable {bits : Nat}

/-- The value as an unsigned word, unless it does not fit. -/
def ofNat? (bits : Nat) (v : Nat) : Option (Unsigned bits) :=
  if h : v < 2 ^ bits then some ⟨v, h⟩ else none

/-- The value as an unsigned word, unless it is negative or does not fit. -/
def ofInt? (bits : Nat) (v : Int) : Option (Unsigned bits) :=
  if v < 0 then none else ofNat? bits v.toNat

theorem ofNat?_val (v : Unsigned bits) : ofNat? bits v.val = some v := by
  simp [ofNat?, v.lt_max]

theorem ofNat?_eq_some_iff {v : Nat} {w : Unsigned bits} : ofNat? bits v = some w ↔ w.val = v := by
  constructor
  · intro h
    unfold ofNat? at h
    split at h
    · cases h
      rfl
    · cases h
  · intro h
    exact h ▸ ofNat?_val w

/-- Zero fits every width. -/
def zero (bits : Nat) : Unsigned bits := ⟨0, Nat.two_pow_pos bits⟩

instance : Inhabited (Unsigned bits) := ⟨zero bits⟩

/-- A wider word holds every value of a narrower one. -/
def widen {narrow wide : Nat} (h : narrow ≤ wide) (v : Unsigned narrow) : Unsigned wide :=
  ⟨v.val, Nat.lt_of_lt_of_le v.lt_max (Nat.pow_le_pow_right (by decide) h)⟩

@[ext] theorem ext {v w : Unsigned bits} (h : v.val = w.val) : v = w := by
  cases v; cases w; cases h; rfl

end Unsigned

end ResultSet
