import Tabular.Error

/-!
# Resolving qualified names

A qualified name means a field of a dataset when its first part is the dataset's
id and its second part is a field. A name that is not qualified, or by another
id, is foreign to the dataset.
-/

namespace Tabular

/-- The local name of the field that a qualified name means in a dataset. -/
def Dataset.resolve (d : Dataset) (name : String) : Except Error String :=
  match splitQualified name with
  | none => .error (.foreignField name d.id)
  | some (dataset, field) =>
    if dataset ≠ d.id then .error (.foreignField name d.id)
    else if d.hasField field then .ok field
    else .error (.unknownField name dataset)

end Tabular
