import Tabular.Binary64.Basic

/-!
# The number nearest to a quotient or a decimal

`nearest` finds the magnitude closest to an exact quotient of whole numbers, a
tie going to the even magnitude, and `Decimal.magnitude` does so for a decimal
numeral. Everything is computed on whole numbers in steps of 2⁻¹⁰⁷⁴, so a
quotient that *is* a number is found again (`nearest_units`).
-/

namespace Tabular

/-- The whole number nearest to `n / d`, a half going to the even neighbour. -/
def roundDiv (n d : Nat) : Nat :=
  if 2 * (n % d) < d then n / d
  else if d < 2 * (n % d) then n / d + 1
  else n / d + n / d % 2

theorem roundDiv_mul (n : Nat) {d : Nat} (h : 0 < d) : roundDiv (n * d) d = n := by
  simp [roundDiv, Nat.mul_mod_left, h, Nat.mul_div_cancel _ h]

/-- A common factor does not change the rounded quotient. -/
theorem roundDiv_mul_mul (n d : Nat) {k : Nat} (h : 0 < k) :
    roundDiv (n * k) (d * k) = roundDiv n d := by
  simp only [roundDiv, Nat.mul_mod_mul_right, Nat.mul_div_mul_right _ _ h, ← Nat.mul_assoc,
    Nat.mul_lt_mul_right h]

namespace Binary64

/-- The binary places behind the point that numbers have. -/
def places : Nat := 1074

/-- How many units of 2⁻¹⁰⁷⁴ make one. -/
def unitsInOne : Nat := Nat.pow 2 places

/-- The magnitude nearest to `num / den`, a tie going to the even one; from the
middle between the greatest finite number and the next power of two on, that is
the infinite one. The exponent is chosen so that 53 bits stay, and rounding up to
the next power of two carries into it by itself. -/
def nearest (num den : Nat) : Nat :=
  let scaled := num * unitsInOne
  let exponent := (scaled / den).log2 - 52
  min infinite (exponent * fractions + roundDiv scaled (den * Nat.pow 2 exponent))

/-- A whole number as the nearest double-precision number. -/
def ofInt (i : Int) : Binary64 :=
  ofMagnitude (i < 0) (nearest i.natAbs 1)

theorem nearest_mul_mul (num den : Nat) {k : Nat} (h : 0 < k) :
    nearest (num * k) (den * k) = nearest num den := by
  have hs : num * k * unitsInOne = num * unitsInOne * k := by
    rw [Nat.mul_assoc, Nat.mul_comm k, ← Nat.mul_assoc]
  have hd : ∀ e, den * k * Nat.pow 2 e = den * Nat.pow 2 e * k := fun e => by
    rw [Nat.mul_assoc, Nat.mul_comm k, ← Nat.mul_assoc]
  simp only [nearest, hs, hd, Nat.mul_div_mul_right _ _ h, roundDiv_mul_mul _ _ h]

theorem log2_mul_two_pow {n : Nat} (hn : n ≠ 0) (k : Nat) :
    (n * Nat.pow 2 k).log2 = n.log2 + k := by
  show (n * 2 ^ k).log2 = n.log2 + k
  have hne : n * 2 ^ k ≠ 0 := Nat.mul_ne_zero hn (Nat.ne_of_gt (Nat.two_pow_pos k))
  apply (Nat.log2_eq_iff hne).2
  obtain ⟨hlo, hhi⟩ := (Nat.log2_eq_iff hn).1 rfl
  constructor
  · rw [Nat.pow_add]
    exact Nat.mul_le_mul_right _ hlo
  · rw [Nat.add_right_comm, Nat.pow_add]
    exact Nat.mul_lt_mul_of_pos_right hhi (Nat.two_pow_pos k)

theorem log2_fraction {f : Nat} (h : f < fractions) : (fractions + f).log2 = 52 := by
  apply (Nat.log2_eq_iff (Nat.ne_of_gt (Nat.add_pos_left (by decide) f))).2
  exact ⟨Nat.le_add_right _ _, by simp only [fractions] at *; omega⟩

/-- The exponent that keeps 53 bits of the units of a magnitude is its own. -/
theorem log2_units (m : Nat) : (units m).log2 - 52 = m / fractions - 1 := by
  by_cases hs : m < fractions
  · have hm : m.log2 < 53 := by
      by_cases hz : m = 0
      · simp [hz]
      · exact (Nat.log2_lt hz).2 (Nat.lt_of_lt_of_le hs (by decide))
    rw [Nat.div_eq_of_lt hs, units, if_pos hs]
    omega
  · have hf : m % fractions < fractions := Nat.mod_lt _ (by decide)
    rw [units, if_neg hs, log2_mul_two_pow (by omega), log2_fraction hf, Nat.add_sub_cancel_left]

/-- A magnitude is its exponent above the first and its significand. -/
theorem magnitude_eq_units (m : Nat) {den : Nat} (hden : 0 < den) :
    (m / fractions - 1) * fractions + roundDiv (units m * den)
      (den * Nat.pow 2 (m / fractions - 1)) = m := by
  by_cases hs : m < fractions
  · rw [Nat.div_eq_of_lt hs, units, if_pos hs]
    simp [roundDiv_mul _ hden]
  · have hpos : 1 ≤ m / fractions := Nat.div_pos (by omega) (by decide)
    obtain ⟨k, hk⟩ := Nat.exists_eq_add_of_le hpos
    have hdiv := Nat.div_add_mod m fractions
    have hpow : 0 < Nat.pow 2 (m / fractions - 1) := Nat.two_pow_pos _
    rw [units, if_neg hs, Nat.mul_assoc, Nat.mul_comm (Nat.pow 2 _) den,
      roundDiv_mul _ (Nat.mul_pos hden hpow), hk, Nat.add_sub_cancel_left]
    rw [hk, Nat.mul_add, Nat.mul_one, Nat.mul_comm fractions k] at hdiv
    omega

/-- A quotient that counts exactly the units of a finite magnitude is rounded to
that magnitude. -/
theorem nearest_units {m num den : Nat} (hm : m < infinite) (hden : 0 < den)
    (h : num * unitsInOne = units m * den) : nearest num den = m := by
  rw [nearest]
  simp only [h, Nat.mul_div_cancel _ hden, log2_units, magnitude_eq_units m hden]
  exact Nat.min_eq_right (Nat.le_of_lt hm)

end Binary64

/-- The numeral `coefficient · 10 ^ exponent`. -/
structure Decimal where
  /-- Its digits, read as a whole number. -/
  coefficient : Nat
  /-- How many places the point stands to the right of the last digit. -/
  exponent : Int
  deriving DecidableEq, Repr

namespace Decimal

/-- The magnitude nearest to a numeral. A numeral far beyond the range on either
side is decided by the size of its exponent, without writing it out. -/
def magnitude (d : Decimal) : Nat :=
  if d.coefficient = 0 then 0
  else if 400 < d.exponent then Binary64.infinite
  else if 3 * d.exponent + d.coefficient.log2 + 1100 < 0 then 0
  else if 0 ≤ d.exponent then Binary64.nearest (d.coefficient * Nat.pow 10 d.exponent.toNat) 1
  else Binary64.nearest d.coefficient (Nat.pow 10 (-d.exponent).toNat)

/-- The exact value of a finite magnitude as a numeral: a unit is
5¹⁰⁷⁴ · 10⁻¹⁰⁷⁴. -/
def ofMagnitude (m : Nat) : Decimal :=
  ⟨Binary64.units m * Nat.pow 5 Binary64.places, -Binary64.places⟩

theorem magnitude_of_coefficient_eq_zero {d : Decimal} (h : d.coefficient = 0) :
    d.magnitude = 0 := by
  simp [magnitude, h]

theorem le_log2_mul_five_pow {u : Nat} (hu : u ≠ 0) (k : Nat) :
    2 * k ≤ (u * Nat.pow 5 k).log2 := by
  show 2 * k ≤ (u * 5 ^ k).log2
  have hne : u * 5 ^ k ≠ 0 := Nat.mul_ne_zero hu (Nat.ne_of_gt (Nat.pow_pos (by decide)))
  rw [Nat.le_log2 hne, Nat.pow_mul]
  calc (2 ^ 2) ^ k ≤ 5 ^ k := Nat.pow_le_pow_left (by decide) k
    _ ≤ u * 5 ^ k := Nat.le_mul_of_pos_left _ (Nat.pos_of_ne_zero hu)

/-- A numeral of whole units is within the range in which it is written out. -/
theorem magnitude_mul_five_pow {u k : Nat} (hu : u ≠ 0) (hpos : 0 < k) (hk : k ≤ 1100) :
    magnitude ⟨u * Nat.pow 5 k, -k⟩ =
      Binary64.nearest (u * Nat.pow 5 k) (Nat.pow 10 k) := by
  have hc : u * Nat.pow 5 k ≠ 0 := Nat.mul_ne_zero hu (Nat.ne_of_gt (Nat.pow_pos (by decide)))
  have hlog := le_log2_mul_five_pow hu k
  unfold magnitude
  rw [if_neg hc, if_neg (by simp only; omega), if_neg (by simp only; omega),
    if_neg (by simp only; omega)]
  simp

/-- The exact numeral of a finite magnitude reads back as that magnitude. -/
theorem magnitude_ofMagnitude {m : Nat} (h : m < Binary64.infinite) :
    (ofMagnitude m).magnitude = m := by
  by_cases hu : Binary64.units m = 0
  · have hm : m = 0 := by
      unfold Binary64.units at hu
      split at hu
      · exact hu
      · have : 0 < Nat.pow 2 (m / Binary64.fractions - 1) := Nat.two_pow_pos _
        have : 0 < Binary64.fractions := by decide
        simp only [Nat.mul_eq_zero] at hu
        omega
    rw [magnitude_of_coefficient_eq_zero (by simp [ofMagnitude, hu]), hm]
  · rw [ofMagnitude, magnitude_mul_five_pow hu (by decide) (by decide)]
    have hten : ∀ n, 0 < Nat.pow 10 n := fun n => Nat.pow_pos (by decide)
    have hpow : ∀ u n, Binary64.unitsInOne = Nat.pow 2 n →
        u * Nat.pow 5 n * Binary64.unitsInOne = u * Nat.pow 10 n := by
      intro u n hn
      rw [hn, Nat.mul_assoc]
      exact congrArg (u * ·) (Nat.mul_pow 5 2 n).symm
    exact Binary64.nearest_units h (hten Binary64.places)
      (hpow _ Binary64.places (by simp only [Binary64.unitsInOne]))

end Decimal

end Tabular
