import Tabular.Binary64.Nearest

/-!
# The shortest numeral of a number

A finite magnitude is written with the fewest digits that read back as it, and
among those with the numeral closest to its exact value, a tie going to the even
last digit. The search goes through the decimal grids from coarse to fine; on a
grid only the two neighbours of the exact value can be the closest, and a
neighbour is taken only when it reads back. Seventeen digits always suffice, so
the exact numeral that ends the search is there to make it total.
-/

namespace Tabular.Binary64

/-- The two coefficients that enclose a magnitude on the grid of multiples of
`10 ^ exponent`, the nearer first. -/
def neighbours (m : Nat) (exponent : Int) : List Nat :=
  let num := if 0 ≤ exponent then units m else units m * Nat.pow 10 (-exponent).toNat
  let den := if 0 ≤ exponent then unitsInOne * Nat.pow 10 exponent.toNat else unitsInOne
  let low := num / den
  if roundDiv num den = low then [low, low + 1] else [low + 1, low]

/-- The closest numeral on one grid that reads back as the magnitude. -/
def shortestOn (m : Nat) (exponent : Int) : Option Decimal :=
  ((neighbours m exponent).map fun c => ⟨c, exponent⟩).find? fun d => d.magnitude == m

/-- An exponent not below that of the leading digit and at most two above it:
the logarithm is estimated by 1233 / 4096 per binary place. -/
def leadingExponent (m : Nat) : Int :=
  (((units m).log2 : Int) - places) * 1233 / 4096 + 1

/-- The shortest numeral that reads back as a finite magnitude. -/
def shortest (m : Nat) : Decimal :=
  ((List.range 20).findSome? fun i : Nat => shortestOn m (leadingExponent m - i)).getD
    (Decimal.ofMagnitude m)

/-- What is written reads back. -/
theorem magnitude_shortest {m : Nat} (h : m < infinite) : (shortest m).magnitude = m := by
  unfold shortest
  cases hs : (List.range 20).findSome? fun i : Nat => shortestOn m (leadingExponent m - i) with
  | none => exact Decimal.magnitude_ofMagnitude h
  | some d =>
    obtain ⟨i, _, hi⟩ := List.exists_of_findSome?_eq_some hs
    simpa using List.find?_some hi

end Tabular.Binary64
