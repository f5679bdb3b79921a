/-!
# Binary floating-point numbers of 64 bits

A number is its 64 bits: one for the sign, and a magnitude of 63 of which the
first eleven are the exponent. Magnitudes grow with the number they stand for,
so both orders are orders of whole numbers: the numeric one compares `rank`,
in which the two zeros coincide and a NaN has no part, and the total one
compares `place`, which tells all bit patterns apart.

The meaning of a finite magnitude is `units`, the whole number of steps of
2⁻¹⁰⁷⁴ that it counts.
-/

namespace Tabular

/-- A double-precision number, given by its bits. -/
structure Binary64 where
  /-- Sign, exponent and fraction, from the highest bit down. -/
  bits : UInt64
  deriving DecidableEq, Repr

namespace Binary64

/-- The number of magnitudes: the value of the sign bit, two to the 63. -/
def signPlace : Nat := 0x8000000000000000

/-- The value of the lowest exponent bit, two to the 52: the number of fractions. -/
def fractions : Nat := 0x10000000000000

/-- The magnitude of the infinities, the least that is not finite. -/
def infinite : Nat := 2047 * fractions

def negative (x : Binary64) : Bool := signPlace ≤ x.bits.toNat

/-- The bits below the sign. -/
def magnitude (x : Binary64) : Nat := x.bits.toNat % signPlace

/-- The number with a given sign and magnitude. -/
def ofMagnitude (negative : Bool) (magnitude : Nat) : Binary64 :=
  ⟨UInt64.ofNat ((if negative then signPlace else 0) + magnitude)⟩

/-- Neither infinite nor a NaN. -/
def isFinite (x : Binary64) : Bool := x.magnitude < infinite

/-- Not a number: a magnitude above the infinite one. -/
def isNaN (x : Binary64) : Bool := infinite < x.magnitude

/-- The place among numbers by value: the two zeros share one. -/
def rank (x : Binary64) : Int :=
  if x.negative then -(x.magnitude : Int) else x.magnitude

/-- The place among all bit patterns: a pattern with the sign bit stands below
all without, and there the larger magnitude comes first. -/
def place (x : Binary64) : Int :=
  if x.negative then -(x.magnitude : Int) - 1 else x.magnitude

/-- Numeric equality: no NaN equals anything, and the two zeros are equal. -/
def eq (x y : Binary64) : Bool := !x.isNaN && !y.isNaN && x.rank == y.rank

/-- Numeric order: no NaN stands in it. -/
def lt (x y : Binary64) : Bool := !x.isNaN && !y.isNaN && x.rank < y.rank

/-- The total order on bit patterns. -/
def totalOrder (x y : Binary64) : Ordering := compare x.place y.place

/-- The whole number of steps of 2⁻¹⁰⁷⁴ that a finite magnitude counts: its
fraction, with the leading one when the exponent is not zero, doubled for each
exponent above the first. -/
def units (magnitude : Nat) : Nat :=
  if magnitude < fractions then magnitude
  else (fractions + magnitude % fractions) * Nat.pow 2 (magnitude / fractions - 1)

/-! ## Sign and magnitude are the number -/

theorem magnitude_lt (x : Binary64) : x.magnitude < signPlace :=
  Nat.mod_lt _ (by decide)

theorem bits_eq (x : Binary64) :
    x.bits.toNat = (if x.negative then signPlace else 0) + x.magnitude := by
  have h := x.bits.toNat_lt
  unfold negative magnitude signPlace
  by_cases hn : 0x8000000000000000 ≤ x.bits.toNat
  · rw [decide_eq_true hn, if_pos rfl]
    omega
  · rw [decide_eq_false hn, if_neg Bool.false_ne_true]
    omega

/-- A number is told by its sign and its magnitude. -/
theorem ext_magnitude {x y : Binary64} (hn : x.negative = y.negative)
    (hm : x.magnitude = y.magnitude) : x = y := by
  have h : x.bits.toNat = y.bits.toNat := by rw [bits_eq x, bits_eq y, hn, hm]
  cases x
  cases y
  simpa using UInt64.toNat_inj.1 h

theorem toNat_ofMagnitude {negative : Bool} {m : Nat} (h : m < signPlace) :
    (ofMagnitude negative m).bits.toNat = (if negative then signPlace else 0) + m := by
  simp only [ofMagnitude, UInt64.toNat_ofNat', signPlace] at *
  apply Nat.mod_eq_of_lt
  split <;> omega

@[simp] theorem negative_ofMagnitude {negative : Bool} {m : Nat} (h : m < signPlace) :
    (ofMagnitude negative m).negative = negative := by
  rw [Binary64.negative, toNat_ofMagnitude h]
  cases negative with
  | false => simpa using h
  | true => simp

@[simp] theorem magnitude_ofMagnitude {negative : Bool} {m : Nat} (h : m < signPlace) :
    (ofMagnitude negative m).magnitude = m := by
  rw [magnitude, toNat_ofMagnitude h]
  cases negative with
  | false => simpa using Nat.mod_eq_of_lt h
  | true => simpa using Nat.mod_eq_of_lt h

@[simp] theorem ofMagnitude_self (x : Binary64) : ofMagnitude x.negative x.magnitude = x :=
  ext_magnitude (negative_ofMagnitude x.magnitude_lt) (magnitude_ofMagnitude x.magnitude_lt)

/-- Different bit patterns have different places. -/
theorem place_injective {x y : Binary64} (h : x.place = y.place) : x = y := by
  have hneg : x.negative = y.negative := by
    unfold place at h
    cases hx : x.negative <;> cases hy : y.negative <;> simp [hx, hy] at h ⊢ <;> omega
  refine ext_magnitude hneg ?_
  unfold place at h
  rw [hneg] at h
  split at h <;> omega

/-- A smaller number by value has the smaller place. -/
theorem place_lt_of_lt {x y : Binary64} (h : x.lt y = true) : x.place < y.place := by
  have hrank : x.rank < y.rank := by
    simp only [lt, Bool.and_eq_true, decide_eq_true_eq] at h
    exact h.2
  unfold rank at hrank
  unfold place
  cases hx : x.negative <;> cases hy : y.negative
  all_goals
    simp only [hx, hy, if_true, Bool.false_eq_true, if_false] at hrank ⊢
    omega

/-- Of two numbers neither of which is a NaN, one is smaller or they are equal. -/
theorem lt_or_eq_or_gt {x y : Binary64} (hx : x.isNaN = false) (hy : y.isNaN = false) :
    x.lt y = true ∨ x.eq y = true ∨ y.lt x = true := by
  simp only [lt, eq, hx, hy, Bool.not_false, Bool.true_and, decide_eq_true_eq, beq_iff_eq]
  omega

theorem not_isNaN_of_isFinite {x : Binary64} (h : x.isFinite = true) : x.isNaN = false := by
  simp only [isFinite, isNaN, decide_eq_true_eq, decide_eq_false_iff_not] at *
  omega

end Binary64

end Tabular
