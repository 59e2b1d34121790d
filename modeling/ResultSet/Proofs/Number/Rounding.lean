import Mathlib
import ResultSet.Number.Power
import ResultSet.Number.Rounding

/-!
# Rounding to the nearest integer

`RoundsTo x n` says that `n` is the integer nearest to `x`, and the one away from zero where two
are equally near.  There is one such integer (`RoundsTo.unique`), its magnitude does not depend on
the sign (`RoundsTo.neg`), and `roundDiv` finds it for a quotient (`roundsTo_roundDiv`).
-/

namespace ResultSet

/-- The integer nearest to the number, and of two nearest ones the one away from zero. -/
structure RoundsTo (x : ℚ) (n : ℤ) : Prop where
  nearest : ∀ m : ℤ, |n - x| ≤ |m - x|
  away : ∀ m : ℤ, |m - x| = |n - x| → |m| ≤ |n|

namespace RoundsTo

variable {x : ℚ} {n m : ℤ}

theorem neg (h : RoundsTo x n) : RoundsTo (-x) (-n) := by
  have hflip (k : ℤ) : |(k : ℚ) - -x| = |((-k : ℤ) : ℚ) - x| := by
    rw [← abs_neg]
    push_cast
    ring_nf
  constructor
  · intro m
    rw [hflip, hflip, neg_neg]
    exact h.nearest (-m)
  · intro m hm
    rw [hflip, hflip, neg_neg] at hm
    simpa using h.away (-m) hm

/-- Two nearest integers that are both the one away from zero are the same. -/
theorem unique (hn : RoundsTo x n) (hm : RoundsTo x m) : n = m := by
  have hnear : |(n : ℚ) - x| = |m - x| := le_antisymm (hn.nearest m) (hm.nearest n)
  have habs : |n| = |m| := le_antisymm (hm.away n hnear) (hn.away m hnear.symm)
  rcases abs_eq_abs.1 habs with heq | heq
  · exact heq
  · -- opposite integers are equally near to zero only, and zero itself is nearer
    subst heq
    have hx : (m : ℚ) * x = 0 := by
      have hsquare : ((-m : ℤ) - x : ℚ) ^ 2 = (m - x) ^ 2 := (sq_eq_sq_iff_abs_eq_abs _ _).2 hnear
      push_cast at hsquare
      linarith
    have hm0 : m = 0 := by
      rcases mul_eq_zero.1 hx with hm0 | hx0
      · exact_mod_cast hm0
      · have hle := hm.nearest 0
        simp only [hx0, Int.cast_zero, sub_zero, abs_zero] at hle
        exact_mod_cast abs_nonpos_iff.1 hle
    simp [hm0]

/-- A number that is at most half below and less than half above a natural number. -/
theorem of_bounds {n : ℕ} (hx : 0 ≤ x) (hlow : (n : ℚ) - 1 / 2 ≤ x) (hhigh : x < n + 1 / 2) :
    RoundsTo x n := by
  have hnear : |(n : ℚ) - x| ≤ 1 / 2 := abs_le.2 ⟨by linarith, by linarith⟩
  have hbelow {m : ℤ} (hm : m < n) : 1 / 2 ≤ |(m : ℚ) - x| := by
    have hm' : (m : ℚ) ≤ n - 1 := by exact_mod_cast Int.le_sub_one_of_lt hm
    rw [abs_of_nonpos (by linarith)]
    linarith
  have habove {m : ℤ} (hm : n < m) : 1 / 2 < |(m : ℚ) - x| := by
    have hm' : (n : ℚ) + 1 ≤ m := by exact_mod_cast hm
    rw [abs_of_nonneg (by linarith)]
    linarith
  constructor
  · intro m
    rcases lt_trichotomy m n with hlt | rfl | hgt
    · exact hnear.trans (hbelow hlt)
    · exact le_refl _
    · exact hnear.trans (habove hgt).le
  · intro m hm
    rw [Int.cast_natCast] at hm
    rw [Nat.abs_cast, abs_le]
    constructor
    · -- further below, beyond zero, lies nothing as near
      by_contra hlt
      have hm' : (m : ℚ) ≤ -n - 1 := by exact_mod_cast Int.le_sub_one_of_lt (not_le.1 hlt)
      have hn : (0 : ℚ) ≤ n := Nat.cast_nonneg n
      rw [abs_of_nonpos (by linarith : (m : ℚ) - x ≤ 0)] at hm
      linarith
    · by_contra hgt
      exact absurd (hm ▸ hnear) (not_le.2 (habove (not_le.1 hgt)))

/-- An integer is its own nearest one. -/
theorem intCast (n : ℤ) : RoundsTo n n := by
  constructor
  · intro m
    simp
  · intro m hm
    rw [sub_self, abs_zero, abs_eq_zero, sub_eq_zero] at hm
    rw [Int.cast_inj.1 hm]

theorem signed (negative : Bool) (h : RoundsTo x n) :
    RoundsTo (if negative then -x else x) (if negative then -n else n) := by
  cases negative
  · exact h
  · exact h.neg

end RoundsTo

/-- The quotient of integers, a half going up. -/
theorem roundDiv_up (num den : Nat) :
    roundDiv .up num den = if den ≤ num % den * 2 then num / den + 1 else num / den := by
  have hup : Tie.up.takesUpper (num / den) = true := rfl
  simp only [roundDiv, hup, if_true]
  split_ifs <;> omega

theorem roundsTo_roundDiv (num : ℕ) {den : ℕ} (h : 0 < den) :
    RoundsTo (num / den) (roundDiv .up num den) := by
  have hden : (0 : ℚ) < den := by exact_mod_cast h
  have hsplit : (num : ℚ) = den * (num / den : ℕ) + (num % den : ℕ) := by
    exact_mod_cast (Nat.div_add_mod num den).symm
  have hquotient : (num : ℚ) / den = (num / den : ℕ) + (num % den : ℕ) / den := by
    rw [hsplit]
    field_simp
  have hnonneg : (0 : ℚ) ≤ (num % den : ℕ) / den := by positivity
  have hlt : ((num % den : ℕ) : ℚ) / den < 1 := by
    rw [div_lt_one hden]
    exact_mod_cast Nat.mod_lt num h
  have hhalf : den ≤ num % den * 2 ↔ 1 / 2 ≤ ((num % den : ℕ) : ℚ) / den := by
    rw [div_le_div_iff₀ two_pos hden, one_mul]
    exact_mod_cast Iff.rfl
  apply RoundsTo.of_bounds (by positivity)
  · rw [hquotient, roundDiv_up]
    split_ifs with hup
    · rw [hhalf] at hup
      push_cast
      linarith
    · linarith
  · rw [hquotient, roundDiv_up]
    split_ifs with hup
    · push_cast
      linarith
    · rw [hhalf, not_le] at hup
      linarith

end ResultSet
