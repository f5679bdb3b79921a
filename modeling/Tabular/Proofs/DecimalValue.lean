import Mathlib.Algebra.Group.Nat.Defs
import Tabular.Binary64.Shortest

/-!
# A numeral counts by its value

The magnitude of a numeral is decided by the size of its exponent where that is far
out of range, and computed from the quotient that the numeral stands for everywhere
else. Both say the same (`Decimal.magnitude_eq_nearest`): what is far out of range
would be rounded to infinity or to zero as well. So two numerals of one value have one
magnitude, however many zeros their digits end in.
-/

namespace Tabular

theorem roundDiv_le (n d : Nat) : roundDiv n d ≤ n / d + 1 := by
  unfold roundDiv
  split
  · omega
  split
  · omega
  · omega

namespace Binary64

/-- Quotients of the same value have the same nearest magnitude. -/
theorem nearest_eq_of_mul_eq {num den num' den' : Nat} (hden : 0 < den) (hden' : 0 < den')
    (h : num * den' = num' * den) : nearest num den = nearest num' den' := by
  rw [← nearest_mul_mul num den hden', ← nearest_mul_mul num' den' hden, h, Nat.mul_comm den]

theorem unitsInOne_eq : unitsInOne = 2 ^ places := by
  -- A variable in place of the number of places keeps the power from being computed.
  unfold unitsInOne
  generalize places = n
  rfl

/-- From twice the first power of two that is not finite on, a quotient is infinite. -/
theorem nearest_eq_infinite {num den k : Nat} (hden : 0 < den) (hk : 1025 ≤ k)
    (h : 2 ^ k * den ≤ num) : nearest num den = infinite := by
  have hscaled : 2 ^ (k + places) ≤ num * unitsInOne / den := by
    rw [Nat.le_div_iff_mul_le hden, unitsInOne_eq]
    calc 2 ^ (k + places) * den = 2 ^ k * den * 2 ^ places := by
          rw [Nat.pow_add, Nat.mul_right_comm]
      _ ≤ num * 2 ^ places := Nat.mul_le_mul_right _ h
  have hne : num * unitsInOne / den ≠ 0 :=
    Nat.ne_of_gt (Nat.lt_of_lt_of_le (Nat.two_pow_pos _) hscaled)
  have hlog : k + 1074 ≤ (num * unitsInOne / den).log2 := (Nat.le_log2 hne).mpr hscaled
  apply Nat.min_eq_left
  calc infinite ≤ ((num * unitsInOne / den).log2 - 52) * fractions :=
        Nat.mul_le_mul_right fractions (by omega)
    _ ≤ _ := Nat.le_add_right _ _

/-- Below the greatest power of two that is finite, a quotient is finite. -/
theorem nearest_lt_infinite {num den k : Nat} (hden : 0 < den) (hk : k ≤ 1023)
    (h : num < 2 ^ k * den) : nearest num den < infinite := by
  have hscaled : num * unitsInOne / den < 2 ^ (k + places) := by
    rw [Nat.div_lt_iff_lt_mul hden, unitsInOne_eq]
    calc num * 2 ^ places < 2 ^ k * den * 2 ^ places :=
          Nat.mul_lt_mul_of_pos_right h (Nat.two_pow_pos _)
      _ = 2 ^ (k + places) * den := by rw [Nat.pow_add, Nat.mul_right_comm]
  have hplaces : places = 1074 := rfl
  unfold nearest
  simp only
  generalize hexp : (num * unitsInOne / den).log2 - 52 = e
  -- 53 bits stay of the quotient, and rounding adds at most one.
  have hquot : num * unitsInOne / (den * Nat.pow 2 e) < 2 ^ 53 := by
    rw [← Nat.div_div_eq_div_mul]
    apply Nat.div_lt_of_lt_mul
    show _ < 2 ^ e * 2 ^ 53
    rw [← Nat.pow_add]
    calc num * unitsInOne / den < 2 ^ ((num * unitsInOne / den).log2 + 1) := Nat.lt_log2_self
      _ ≤ 2 ^ (e + 53) := Nat.pow_le_pow_right (by decide) (by omega)
  have hround := roundDiv_le (num * unitsInOne) (den * Nat.pow 2 e)
  have he : e ≤ k + 1021 := by
    by_cases hzero : num * unitsInOne / den = 0
    · rw [hzero] at hexp
      simp at hexp
      omega
    · have := (Nat.log2_lt hzero).mpr hscaled
      omega
  refine Nat.lt_of_le_of_lt (Nat.min_le_right _ _) ?_
  simp only [infinite, fractions]
  omega

/-- The magnitude of a whole number, which is not above the infinite one. -/
theorem magnitude_ofInt (i : Int) :
    (ofInt i).magnitude = nearest i.natAbs 1 ∧ (ofInt i).magnitude ≤ infinite := by
  have hle : nearest i.natAbs 1 ≤ infinite := Nat.min_le_left _ _
  have hmagnitude : (ofInt i).magnitude = nearest i.natAbs 1 :=
    magnitude_ofMagnitude (Nat.lt_of_le_of_lt hle (by decide))
  exact ⟨hmagnitude, hmagnitude ▸ hle⟩

theorem isNaN_ofInt (i : Int) : (ofInt i).isNaN = false := by
  rw [isNaN, decide_eq_false_iff_not, Nat.not_lt]
  exact (magnitude_ofInt i).2

theorem isFinite_ofInt {i : Int} {k : Nat} (hk : k ≤ 1023) (h : i.natAbs < 2 ^ k) :
    (ofInt i).isFinite = true := by
  rw [isFinite, decide_eq_true_iff, (magnitude_ofInt i).1]
  apply nearest_lt_infinite (by decide) hk
  rwa [Nat.mul_one]

/-- Below half a unit, a quotient is zero. -/
theorem nearest_eq_zero {num den : Nat} (h : 2 * (num * unitsInOne) < den) :
    nearest num den = 0 := by
  have hlt : num * unitsInOne < den := by omega
  have hround : roundDiv (num * unitsInOne) den = 0 := by
    rw [roundDiv, Nat.mod_eq_of_lt hlt, if_pos h, Nat.div_eq_of_lt hlt]
  simp [nearest, Nat.div_eq_of_lt hlt, hround]

end Binary64

namespace Decimal

/-- The numerator of the quotient that a numeral stands for. -/
def num (d : Decimal) : Nat := d.coefficient * 10 ^ d.exponent.toNat

/-- Its denominator: a power of ten where the exponent is negative. -/
def den (d : Decimal) : Nat := 10 ^ (-d.exponent).toNat

theorem den_pos (d : Decimal) : 0 < d.den := Nat.pow_pos (by decide)

theorem nearest_of_large {d : Decimal} (hc : d.coefficient ≠ 0) (he : 400 < d.exponent) :
    Binary64.nearest d.num d.den = Binary64.infinite := by
  have hden : d.den = 1 := by
    rw [den, show (-d.exponent).toNat = 0 by omega, Nat.pow_zero]
  have hexp : 1025 ≤ 3 * d.exponent.toNat := by omega
  apply Binary64.nearest_eq_infinite d.den_pos hexp
  rw [hden, Nat.mul_one]
  calc 2 ^ (3 * d.exponent.toNat) = 8 ^ d.exponent.toNat := Nat.pow_mul 2 3 _
    _ ≤ 10 ^ d.exponent.toNat := Nat.pow_le_pow_left (by decide) _
    _ ≤ d.num := Nat.le_mul_of_pos_left _ (Nat.pos_of_ne_zero hc)

theorem nearest_of_small {d : Decimal}
    (he : 3 * d.exponent + d.coefficient.log2 + 1100 < 0) :
    Binary64.nearest d.num d.den = 0 := by
  apply Binary64.nearest_eq_zero
  have hnum : d.num = d.coefficient := by
    rw [num, show d.exponent.toNat = 0 by omega, Nat.pow_zero, Nat.mul_one]
  have hplaces : Binary64.places = 1074 := rfl
  rw [hnum, Binary64.unitsInOne_eq]
  calc 2 * (d.coefficient * 2 ^ Binary64.places) = d.coefficient * 2 ^ (Binary64.places + 1) := by
        rw [Nat.mul_comm 2, Nat.mul_assoc, ← Nat.pow_succ]
    _ < 2 ^ (d.coefficient.log2 + 1) * 2 ^ (Binary64.places + 1) :=
        Nat.mul_lt_mul_of_pos_right Nat.lt_log2_self (Nat.two_pow_pos _)
    _ = 2 ^ (d.coefficient.log2 + 1 + (Binary64.places + 1)) := (Nat.pow_add _ _ _).symm
    _ ≤ 2 ^ (3 * (-d.exponent).toNat) := Nat.pow_le_pow_right (by decide) (by omega)
    _ = 8 ^ (-d.exponent).toNat := Nat.pow_mul 2 3 _
    _ ≤ d.den := Nat.pow_le_pow_left (by decide) _

/-- **The magnitude of a numeral is the one nearest to its value**, also where it is
told from the exponent alone. -/
theorem magnitude_eq_nearest (d : Decimal) : d.magnitude = Binary64.nearest d.num d.den := by
  by_cases hc : d.coefficient = 0
  · have hnum : d.num = 0 := by rw [num, hc, Nat.zero_mul]
    rw [magnitude_of_coefficient_eq_zero hc, hnum]
    symm
    apply Binary64.nearest_eq_zero
    rw [Nat.zero_mul]
    exact d.den_pos
  rw [magnitude, if_neg hc]
  by_cases hlarge : 400 < d.exponent
  · rw [if_pos hlarge, nearest_of_large hc hlarge]
  rw [if_neg hlarge]
  by_cases hsmall : 3 * d.exponent + d.coefficient.log2 + 1100 < 0
  · rw [if_pos hsmall, nearest_of_small hsmall]
  rw [if_neg hsmall]
  by_cases hpos : 0 ≤ d.exponent
  · rw [if_pos hpos, den, show (-d.exponent).toNat = 0 by omega]
    rfl
  · rw [if_neg hpos, num, show d.exponent.toNat = 0 by omega, Nat.pow_zero, Nat.mul_one]
    rfl

/-- Closing zeros of the digits count the same as a greater exponent. -/
theorem magnitude_mul_ten_pow (c k : Nat) (e : Int) :
    magnitude ⟨c * 10 ^ k, e⟩ = magnitude ⟨c, e + k⟩ := by
  rw [magnitude_eq_nearest, magnitude_eq_nearest]
  apply Binary64.nearest_eq_of_mul_eq (den_pos _) (den_pos _)
  show c * 10 ^ k * 10 ^ e.toNat * 10 ^ (-(e + k)).toNat =
    c * 10 ^ (e + k).toNat * 10 ^ (-e).toNat
  have hexp : k + e.toNat + (-(e + k)).toNat = (e + k).toNat + (-e).toNat := by omega
  simp only [Nat.mul_assoc, ← Nat.pow_add]
  rw [hexp]

end Decimal

end Tabular
