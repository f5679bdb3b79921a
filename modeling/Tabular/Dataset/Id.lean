import Tabular.Text.Blank

/-!
# Dataset ids and qualified field names

The underscore separates a dataset's id from a field in a qualified name, so an
id has none; nor may it be blank. `splitQualified` takes a qualified name apart:
it must have exactly one underscore, with text on both sides.
-/

namespace Tabular

/-- Why a text is not a dataset id. -/
inductive IdFault where
  | blank
  | underscore
  deriving DecidableEq, Repr

/-- Checks a dataset id: a character that is not blank, and no underscore. -/
def checkId (id : String) : Except IdFault Unit :=
  if Text.isBlankText id then .error .blank
  else if id.toList.contains '_' then .error .underscore
  else .ok ()

def IdFault.message (id : String) : IdFault → String
  | blank => s!"Dataset id '{id}' is empty or whitespace"
  | underscore => s!"Dataset id '{id}' contains an underscore"

/-- The rule that an id breaks. -/
def IdFault.reason : IdFault → String
  | blank => "cannot be empty or whitespace"
  | underscore => "cannot contain an underscore"

/-- The text in front of the first underscore: all of it when there is none. -/
def beforeUnderscore (name : String) : String :=
  String.ofList (name.toList.takeWhile (· ≠ '_'))

/-- The dataset and the field of a qualified name. -/
def splitQualified (name : String) : Option (String × String) :=
  let dataset := name.toList.takeWhile (· ≠ '_')
  match name.toList.dropWhile (· ≠ '_') with
  | [] => none
  | _ :: field =>
    if dataset.isEmpty || field.isEmpty || field.contains '_' then none
    else some (String.ofList dataset, String.ofList field)

def qualify (dataset field : String) : String := dataset ++ "_" ++ field

end Tabular
