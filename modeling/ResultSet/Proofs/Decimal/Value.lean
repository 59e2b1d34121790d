import Mathlib
import ResultSet.Proofs.Decimal.Compare

/-!
# The numbers that decimals stand for

`Scaled.toRat` and `FixedDecimal.toRat` are the numbers themselves, as rationals.

Fixed decimals of different scales are compared in one of three ways: as they are, with one of the
words brought to the larger scale, or as numbers of any size.  `FixedDecimal.compareBy` takes the
comparison of the latter as an argument.  Whatever it is, as long as it compares exactly
(`Scaled.Exact`), all three ways give the order of the rationals: `FixedDecimal.compareBy_exact`.
-/

namespace ResultSet

/-! ## Numbers of any size -/

namespace Scaled

/-- The number itself. -/
def toRat (v : Scaled) : ℚ := v.digits / 10 ^ v.scale

/-- Digits at one scale are ordered like integers. -/
theorem cmp_toRat (left right scale : Int) :
    cmp (toRat ⟨left, scale⟩) (toRat ⟨right, scale⟩) = Ord.compare left right := by
  have hmono : StrictMono fun digits : Int => toRat ⟨digits, scale⟩ := by
    intro small large hlt
    have hpow : (0 : ℚ) < 10 ^ scale := zpow_pos (by norm_num) scale
    exact div_lt_div_of_pos_right (Int.cast_lt.2 hlt) hpow
  rw [hmono.cmp_map_eq, cmp_eq_compare]

/-- Zeros behind the digits do not change the number. -/
theorem toRat_shift (digits scale : Int) (gap : Nat) :
    toRat ⟨digits * 10 ^ gap, scale + gap⟩ = toRat ⟨digits, scale⟩ := by
  have hten : (10 : ℚ) ≠ 0 := by norm_num
  rw [toRat, toRat, Int.cast_mul, Int.cast_pow, zpow_add₀ hten, zpow_natCast]
  exact mul_div_mul_right _ _ (pow_ne_zero gap hten)

/-- The comparison gives the order of the numbers. -/
def Exact (order : Scaled → Scaled → Ordering) : Prop :=
  ∀ left right, order left right = cmp left.toRat right.toRat

theorem compareShifted_exact (left right : Int) (gap : Nat) (scale : Int) :
    compareShifted left gap right = cmp (toRat ⟨left, scale⟩) (toRat ⟨right, scale + gap⟩) := by
  rw [compareShifted_eq, ← toRat_shift left scale gap, cmp_toRat]

theorem compare_exact : Exact compare := by
  intro left right
  have hscale {small large : Int} (h : small ≤ large) : small + (large - small).toNat = large := by
    omega
  rw [compare]
  split
  · rename_i hle
    rw [compareShifted_exact _ _ _ left.scale, hscale hle]
  · rename_i hgt
    rw [compareShifted_exact _ _ _ right.scale, hscale (by omega), cmp_swap]

end Scaled

/-! ## Fixed decimals -/

namespace FixedDecimal

variable {u v w : DecimalWidth}

/-- The number that the decimal stands for. -/
def toRat (d : FixedDecimal w) : ℚ := d.value.val / 10 ^ d.scale.val

theorem toScaled_toRat (d : FixedDecimal w) : d.toScaled.toRat = d.toRat := by
  rw [Scaled.toRat, toRat, toScaled, zpow_natCast]

/-- The word at the larger scale stands for the same number. -/
theorem toRat_shiftedWord {d : FixedDecimal w} {scale : Nat} (hscale : d.scale.val < scale)
    {shifted : Int} (h : shiftedWord? d.value.val (scale - d.scale.val) = some shifted) :
    d.toScaled.toRat = Scaled.toRat ⟨shifted, scale⟩ := by
  have hgap : (scale : Int) = d.scale.val + (scale - d.scale.val : Nat) := by omega
  rw [shiftedWord?_eq_some h, hgap, Scaled.toRat_shift, toScaled]

theorem compareBy_eq_cmp {order : Scaled → Scaled → Ordering} (horder : Scaled.Exact order)
    (left : FixedDecimal w) (right : FixedDecimal v) :
    compareBy order left right = cmp left.toRat right.toRat := by
  rw [← toScaled_toRat, ← toScaled_toRat, compareBy]
  rcases Nat.lt_trichotomy left.scale.val right.scale.val with hlt | heq | hgt
  · rw [if_neg (Nat.ne_of_lt hlt), if_pos hlt]
    split
    · rename_i shifted hshifted
      rw [toRat_shiftedWord hlt hshifted, toScaled, Scaled.cmp_toRat]
    · exact horder _ _
  · rw [if_pos heq, toScaled, toScaled, heq, Scaled.cmp_toRat]
  · rw [if_neg (Nat.ne_of_gt hgt), if_neg (Nat.lt_asymm hgt)]
    split
    · rename_i shifted hshifted
      rw [toRat_shiftedWord hgt hshifted, toScaled, Scaled.cmp_toRat]
    · exact horder _ _

theorem sameValue_iff_toRat {left : FixedDecimal w} {right : FixedDecimal v} :
    left.sameValue right = true ↔ left.toRat = right.toRat := by
  rw [sameValue, beq_iff_eq, compare, compareBy_eq_cmp Scaled.compare_exact, cmp_eq_eq_iff]

/-- Fixed decimals of any widths and scales are ordered as the numbers they stand for, in whatever
way each pair is compared, and are the same exactly if these numbers are.  So the order is
antisymmetric and chains. -/
theorem compareBy_exact {order : Scaled → Scaled → Ordering} (horder : Scaled.Exact order)
    (a : FixedDecimal u) (b : FixedDecimal v) (c : FixedDecimal w) :
    compareBy order a b = cmp a.toRat b.toRat ∧
      a.compare b = compareBy order a b ∧
      (a.sameValue b = true ↔ a.toRat = b.toRat) ∧
      compareBy order b a = (compareBy order a b).swap ∧
      ((compareBy order a b).isLE = true → (compareBy order b c).isLE = true →
        (compareBy order a c).isLE = true) := by
  have hle {x y : ℚ} : (cmp x y).isLE = true ↔ x ≤ y :=
    Ordering.ne_gt_iff_isLE.symm.trans (cmp_compares x y).ne_gt
  have hsame : a.compare b = compareBy order a b := by
    rw [compare, compareBy_eq_cmp Scaled.compare_exact, compareBy_eq_cmp horder]
  refine ⟨compareBy_eq_cmp horder a b, hsame, sameValue_iff_toRat, ?_, ?_⟩
  · rw [compareBy_eq_cmp horder, compareBy_eq_cmp horder, cmp_swap]
  · rw [compareBy_eq_cmp horder, compareBy_eq_cmp horder, compareBy_eq_cmp horder, hle, hle, hle]
    exact le_trans

/-- Three decimals at the edge of 128 bits: the first two are compared in words at one scale, the
last two at the larger scale, and the first and the last as numbers of any size. -/
theorem compareBy_exact_edge :
    let a : FixedDecimal .w128 := ⟨⟨2 ^ (127 : Nat) - 1, by decide, by decide⟩, ⟨0, by decide⟩⟩
    let b : FixedDecimal .w32 := ⟨⟨12, by decide, by decide⟩, ⟨0, by decide⟩⟩
    let c : FixedDecimal .w64 := ⟨⟨125, by decide, by decide⟩, ⟨1, by decide⟩⟩
    Scaled.Exact Scaled.compare ∧ shiftedWord? a.value.val 1 = none ∧
      shiftedWord? b.value.val 1 = some 120 ∧ b.toRat < c.toRat ∧ c.toRat < a.toRat ∧
      compareBy Scaled.compare b a = .lt := by
  intro a b c
  obtain ⟨hbc, -⟩ := compareBy_exact Scaled.compare_exact b c a
  obtain ⟨hca, -⟩ := compareBy_exact Scaled.compare_exact c a b
  have hbcLess : compareBy Scaled.compare b c = .lt := by decide
  have hcaLess : compareBy Scaled.compare c a = .lt := by decide
  exact ⟨Scaled.compare_exact, by decide, by decide, (cmp_eq_lt_iff _ _).1 (hbc ▸ hbcLess),
    (cmp_eq_lt_iff _ _).1 (hca ▸ hcaLess), by decide⟩

end FixedDecimal

end ResultSet
