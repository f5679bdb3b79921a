import Tabular.Query.Selection
import Tabular.Row

/-!
# Answering a query

The steps of an answer from one dataset, each of which can end it: the filter,
the columns, the options, the number of rows. The rows of the records that are
left are then sorted if the query asks for an order.
-/

namespace Tabular

/-- The greatest number of rows in an answer. -/
def mostRows : Nat := 5000

/-- The columns of a query in a dataset, or the first that is none of its. -/
def Dataset.columns (d : Dataset) : List String → Except Error (List Column)
  | [] => .ok []
  | name :: rest => do
    let field ← d.resolve name
    let others ← d.columns rest
    .ok (⟨name, field⟩ :: others)

/-- The rows that a query shows of a dataset. -/
def Query.run [Searcher] (q : Query) (d : Dataset) : Except Error (List Row) := do
  let found ← q.filter.select d
  let columns ← d.columns q.options.columns
  q.options.check.mapError Error.ofQueryFault
  if mostRows < found.size then .error (.tooManyRows found.size mostRows)
  else
    let rows := d.rows columns found
    match q.options.order with
    | none => .ok rows
    | some order => .ok (Row.sortBy order rows)

end Tabular
