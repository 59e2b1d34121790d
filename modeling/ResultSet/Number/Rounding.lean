/-!
# Rounding a quotient

`roundDiv` is the integer nearest to a quotient; `Tie` says where a quotient
exactly half way between two integers goes.
-/

namespace ResultSet

/-- Where a value exactly half way between two neighbours goes. -/
inductive Tie where
  /-- to the even neighbour -/
  | even
  /-- to the greater neighbour -/
  | up
deriving DecidableEq

/-- Whether the upper neighbour `low + 1` is taken when the value lies exactly
half way above `low`. -/
def Tie.takesUpper : Tie → (low : Nat) → Bool
  | .even, low => low % 2 == 1
  | .up, _ => true

/-- The integer nearest to `num / den`. -/
def roundDiv (tie : Tie) (num den : Nat) : Nat :=
  let low := num / den
  let rest := 2 * (num % den)
  if rest < den then low
  else if rest > den then low + 1
  else if tie.takesUpper low then low + 1
  else low

end ResultSet
