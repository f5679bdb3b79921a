import Tabular.Proofs.StableSort
import Tabular.Row

/-!
# The order of rows

What two rows hold in a column is compared in a total order, in which only the same
value, or none on both sides, compares equal. So rows have one stable order by a column,
and sorting finds it: every row with the place that it had, no row above the next one,
and rows that hold the same in the order of their places (`Row.sortBy_only_order`).
-/

namespace Tabular

namespace Value

theorem compare_eq_iff {a b : Option Value} : compare a b = .eq ↔ a = b := by
  constructor
  · exact Std.LawfulEqCmp.eq_of_compare
  · intro h
    rw [h]
    exact Std.ReflCmp.compare_self

/-- What compares alike twice in a row compares so from end to end. -/
theorem compare_trans {o : Ordering} {a b c : Option Value} (hab : compare a b = o)
    (hbc : compare b c = o) : compare a c = o := by
  cases o with
  | lt => exact Std.TransCmp.lt_trans hab hbc
  | eq => exact Std.TransCmp.eq_trans hab hbc
  | gt => exact Std.TransCmp.gt_trans hab hbc

/-- The order of stored numbers agrees with the numeric one, where that tells them apart. -/
theorem compare_of_lt {x y : Binary64} (h : x.lt y = true) :
    compare (some (number x)) (some (number y)) = .lt := by
  show Ord.compare x.place y.place = .lt
  exact Int.compare_eq_lt.mpr (Binary64.place_lt_of_lt h)

end Value

namespace Row

/-- Sorting by a column puts rows in stable order. -/
theorem sortedStably_sortBy (column : String) (rows : List Row) :
    SortedStably Value.compare (lookup column) rows (sortBy column rows) :=
  sortedStably_mergeSort rows

theorem sortBy_eq_of_sorted {column : String} {rows sorted : List Row}
    (h : SortedStably Value.compare (lookup column) rows sorted) : sorted = sortBy column rows :=
  h.unique (sortedStably_sortBy column rows)

/-- Rows that are sorted already are in stable order as they stand. -/
theorem sortBy_sortBy (column : String) (rows : List Row) :
    sortBy column (sortBy column rows) = sortBy column rows := by
  have hsorted := sortedStably_sortBy column rows
  exact (sortBy_eq_of_sorted ⟨.rfl, hsorted.ascending, fun _ => rfl⟩).symm

/-- **Rows have one order.** Values that may be missing are totally ordered: swapping them
swaps the outcome, outcomes carry over, only the same compares equal, and numbers are not
compared against their numeric order. Rows sorted by a column are in stable order by it,
each with the place that it had; nothing else is, so sorting again changes nothing. -/
theorem sortBy_only_order :
    ((∀ a b, Value.compare a b = (Value.compare b a).swap) ∧
      (∀ o a b c, Value.compare a b = o → Value.compare b c = o → Value.compare a c = o) ∧
      (∀ a b, Value.compare a b = .eq ↔ a = b) ∧
      ∀ x y : Binary64, x.lt y = true →
        Value.compare (some (.number x)) (some (.number y)) = .lt) ∧
    ∀ column rows,
      (∀ sorted, sorted = sortBy column rows ↔
        ∃ placed, PlacedStably Value.compare (lookup column) rows placed ∧
          placed.map Prod.fst = sorted) ∧
      sortBy column (sortBy column rows) = sortBy column rows := by
  refine ⟨⟨?_, ?_, ?_, ?_⟩, ?_⟩
  · intro a b
    exact Std.OrientedCmp.eq_swap
  · intro o a b c hab hbc
    exact Value.compare_trans hab hbc
  · intro a b
    exact Value.compare_eq_iff
  · intro x y h
    exact Value.compare_of_lt h
  · intro column rows
    refine ⟨?_, sortBy_sortBy column rows⟩
    intro sorted
    rw [← sortedStably_iff_exists_placed]
    constructor
    · intro h
      rw [h]
      exact sortedStably_sortBy column rows
    · exact sortBy_eq_of_sorted

end Row

/-- Rows by seats: two texts that are the same, both zeros, a NaN, an infinite number and
no seats at all. -/
def unevenRows : List Row :=
  [[("seats", .text "many"), ("name", .text "A")], [("seats", .number ⟨0x7FF8000000000000⟩)],
    [("seats", .number ⟨0⟩)], [("seats", .text "many"), ("name", .text "B")],
    [("seats", .number ⟨0x7FF0000000000000⟩)], [("name", .text "C")],
    [("seats", .number ⟨0x8000000000000000⟩)]]

/-- The row without seats is first, the zeros are told apart, the NaN stands behind the
infinite number, and the same texts stay in turn. -/
theorem unevenRows_sorted :
    Binary64.lt ⟨0⟩ ⟨0x7FF0000000000000⟩ = true ∧
    Value.compare (some (.number ⟨0⟩)) (some (.number ⟨0x7FF0000000000000⟩)) = .lt ∧
    Row.sortBy "seats" unevenRows =
      [[("name", .text "C")], [("seats", .number ⟨0x8000000000000000⟩)],
        [("seats", .number ⟨0⟩)], [("seats", .number ⟨0x7FF0000000000000⟩)],
        [("seats", .number ⟨0x7FF8000000000000⟩)],
        [("seats", .text "many"), ("name", .text "A")],
        [("seats", .text "many"), ("name", .text "B")]] := by
  obtain ⟨⟨-, -, -, hnumbers⟩, hrows⟩ := Row.sortBy_only_order
  obtain ⟨honly, -⟩ := hrows "seats" unevenRows
  have hlt : Binary64.lt ⟨0⟩ ⟨0x7FF0000000000000⟩ = true := by decide
  have hplaced : PlacedStably Value.compare (lookup "seats") unevenRows
      [([("name", .text "C")], 5), ([("seats", .number ⟨0x8000000000000000⟩)], 6),
        ([("seats", .number ⟨0⟩)], 2), ([("seats", .number ⟨0x7FF0000000000000⟩)], 4),
        ([("seats", .number ⟨0x7FF8000000000000⟩)], 1),
        ([("seats", .text "many"), ("name", .text "A")], 0),
        ([("seats", .text "many"), ("name", .text "B")], 3)] :=
    ⟨by decide +kernel, by decide +kernel, by decide +kernel⟩
  exact ⟨hlt, hnumbers _ _ hlt, ((honly _).mpr ⟨_, hplaced, rfl⟩).symm⟩

end Tabular
