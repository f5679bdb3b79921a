import Tabular.Dataset
import Tabular.Positions

/-!
# Rows

A row binds column names to values, in the order in which the columns were
asked for; a column that is bound again keeps its first place. Rows are sorted
by what they hold in one column, rows that hold the same there keeping their
order.
-/

namespace Tabular

/-- The columns of one answer and what they hold. -/
abbrev Row := List (String × Value)

namespace Row

/-- Binds a column: at its place if it has one, and otherwise at the end. -/
def set (column : String) (value : Value) : Row → Row
  | [] => [(column, value)]
  | cell :: rest =>
    if cell.1 = column then (column, value) :: rest else cell :: set column value rest

/-- A row as JSON, its columns in their order. -/
def toJson (r : Row) : Json := .object (r.map fun cell => (cell.1, cell.2.toJson))

def listToJson (rows : List Row) : Json := .array (rows.map toJson)

/-- Whether a row may stand before another when sorting by a column. -/
def notAfter (column : String) (r s : Row) : Bool :=
  (Value.compare (lookup column r) (lookup column s)).isLE

def sortBy (column : String) (rows : List Row) : List Row :=
  rows.mergeSort (notAfter column)

end Row

/-- A column to show and the field behind it. -/
structure Column where
  /-- The name as it was asked for. -/
  qualified : String
  /-- The field's own name. -/
  field : String
  deriving DecidableEq, Repr

/-- The row of a record: of the columns in turn those whose field it has. -/
def Record.row (columns : List Column) (r : Record) : Row :=
  columns.foldl (fun row column =>
    match r.get? column.field with
    | some value => row.set column.qualified value
    | none => row) []

/-- The rows of the records at some positions, in their order. Positions behind
the last record have none. -/
def Dataset.rows (d : Dataset) (columns : List Column) (found : Positions) : List Row :=
  let records := d.records.toArray
  found.toList.filterMap fun i => (records[i]?).map (Record.row columns)

end Tabular
