import Tabular.Dataset.Id
import Tabular.Dataset.Reader
import Tabular.Query.Basic

/-!
# Errors

Every failure that a request can report. The first rule that is broken becomes
the error. `message` is its wording; `class`, `retryable` and `hint` are what a
caller may make of it.
-/

namespace Tabular

inductive Error where
  | invalidId (id : String) (fault : IdFault)
  | duplicate (id : String)
  | notFound (id : String)
  | ingest (id : String) (fault : LoadFault)
  | shape (fault : ShapeFault)
  /-- A field of another dataset, or a name that is not qualified. -/
  | foreignField (field dataset : String)
  | unknownField (field dataset : String)
  | type (fault : TypeFault)
  | pattern (raw : String)
  | patternTooLarge (literal : String)
  | tooManyRows (count limit : Nat)
  deriving DecidableEq, Repr

/-- How a transport would answer. -/
inductive ErrorClass where
  /-- The dataset is not loaded. -/
  | notFound
  /-- The request cannot be met as it stands. -/
  | invalid
  /-- The request is in order and its answer too large. -/
  | tooManyRows
  deriving DecidableEq, Repr

namespace Error

def ofQueryFault : QueryFault → Error
  | .shape f => shape f
  | .type f => type f
  | .pattern raw => pattern raw

def ofIdFault (id : String) (f : IdFault) : Error := invalidId id f

def message : Error → String
  | invalidId id fault => s!"Invalid dataset id '{id}': {fault.reason}"
  | duplicate id => s!"Dataset '{id}' already exists"
  | notFound id => s!"Dataset '{id}' does not exist"
  | ingest id fault => s!"Failed to ingest dataset '{id}': {fault.message}"
  | shape fault => "Malformed query: " ++ fault.message
  | foreignField field dataset => s!"Field '{field}' does not belong to dataset '{dataset}'"
  | unknownField field dataset => s!"Field '{field}' does not exist in dataset '{dataset}'"
  | type fault => "Type mismatch: " ++ fault.message
  | pattern raw => s!"Invalid wildcard pattern '{raw}'"
  | patternTooLarge literal => s!"Wildcard pattern '{literal}' is too large to match"
  | tooManyRows count limit => s!"Query returned {count} rows, more than the limit of {limit}"

/-- The messages of what caused an error, the nearest cause first. -/
def causes : Error → List String
  | ingest _ fault => fault.chain
  | _ => []

def errorClass : Error → ErrorClass
  | notFound _ => .notFound
  | tooManyRows _ _ => .tooManyRows
  | _ => .invalid

/-- Whether the same request can succeed once it asks for less. -/
def retryable : Error → Bool
  | tooManyRows _ _ => true
  | _ => false

def hint : Error → Option String
  | invalidId _ _ => some "Use a non-blank id without underscores"
  | duplicate _ => some "Remove the existing dataset before adding it again"
  | notFound _ => some "List loaded datasets with: insight list"
  | foreignField _ _ => some "Every field in a query must use the same <dataset>_ prefix"
  | pattern _ => some "'*' is only allowed as the first or last character"
  | patternTooLarge _ => some "Use a shorter IS operand"
  | tooManyRows _ _ => some "Add a WHERE condition to narrow the result"
  | _ => none

end Error

end Tabular
