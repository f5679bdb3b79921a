import Tabular.Json.Reader
import Tabular.Query.Basic
import Tabular.Text.Blank

/-!
# The grammar of queries

A query is a JSON object with exactly the keys `WHERE` and `OPTIONS`. The filter
is checked first, from the outside in and from left to right, and then the
options. Whether operands have the right type, where their stars stand and
whether the options have further keys is not asked here.
-/

namespace Tabular

/-- What the key of a filter object can mean. -/
inductive FilterKey where
  | logical (connective : Connective)
  | negation
  | comparison (operator : Operator)
  deriving DecidableEq, Repr

/-- The meaning of a key. -/
def FilterKey.ofText? (key : String) : Option FilterKey :=
  if key = "AND" then some (logical .all)
  else if key = "OR" then some (logical .any)
  else if key = "NOT" then some negation
  else (Operator.ofKeyword? key).map comparison

/-- A comparison: an object with a field and the operand. -/
def Comparison.ofJson (operator : Operator) : Json → Except ShapeFault Comparison
  | .object [(field, literal)] => .ok ⟨field, operator, literal⟩
  | .object members => .error (.comparisonFields operator (Json.keyList members))
  | _ => .error (.comparisonNotObject operator)

mutual

/-- A filter, from the members of its object: none, or one whose key says what
stands behind it. -/
def Filter.ofMembers : List (String × Json) → Except ShapeFault Filter
  | [] => .ok .everything
  | [(key, body)] =>
    match FilterKey.ofText? key with
    | some kind => ofBody kind body
    | none => .error (.unknownKey key)
  | members => .error (.filterKeys (Json.keyList members))

/-- A filter, from what stands behind its key. -/
def Filter.ofBody : FilterKey → Json → Except ShapeFault Filter
  | .logical c, .array [] => .error (.noOperands c)
  | .logical c, .array (item :: items) => do
    let first ← ofOperand c item
    let rest ← ofOperands c items
    .ok (.logical c (first :: rest))
  | .logical c, _ => .error (.operandsNotList c)
  | .negation, .object members => do
    let operand ← ofMembers members
    .ok (.negation operand)
  | .negation, _ => .error .negationNotObject
  | .comparison o, body => do
    let c ← Comparison.ofJson o body
    .ok (.comparison c)

/-- One filter of a list. -/
def Filter.ofOperand (c : Connective) : Json → Except ShapeFault Filter
  | .object members => ofMembers members
  | _ => .error (.operandNotObject c)

/-- The filters of a list, the first fault from the left winning. -/
def Filter.ofOperands (c : Connective) : List Json → Except ShapeFault (List Filter)
  | [] => .ok []
  | item :: items => do
    let first ← ofOperand c item
    let rest ← ofOperands c items
    .ok (first :: rest)

end

/-- A filter from the value of `WHERE`. -/
def Filter.ofJson : Json → Except ShapeFault Filter
  | .object members => ofMembers members
  | _ => .error .whereNotObject

/-- Column names: a list of texts. -/
def columnNames : List Json → Except ShapeFault (List String)
  | [] => .ok []
  | .string name :: rest => do
    let names ← columnNames rest
    .ok (name :: names)
  | _ :: _ => .error .columnNotText

/-- The columns from the value of `COLUMNS`. -/
def columnsOfJson : Option Json → Except ShapeFault (List String)
  | some (.array items) => do
    let names ← columnNames items
    if names.isEmpty then .error .columnsEmpty else .ok names
  | some _ => .error .columnsNotList
  | none => .error .columnsMissing

/-- The order from the value of `ORDER`. -/
def orderOfJson : Option Json → Except ShapeFault (Option String)
  | none => .ok none
  | some (.string order) => .ok (some order)
  | some _ => .error .orderNotText

/-- The options from the value of `OPTIONS`. -/
def Options.ofJson : Json → Except ShapeFault Options
  | .object members => do
    let columns ← columnsOfJson (lookup "COLUMNS" members)
    let order ← orderOfJson (lookup "ORDER" members)
    .ok ⟨columns, order,
      (Json.keyList members).filter fun key => key ≠ "COLUMNS" && key ≠ "ORDER"⟩
  | _ => .error .optionsNotObject

/-- A query from a JSON value. -/
def Query.ofJson : Json → Except ShapeFault Query
  | .object members =>
    match members.length, lookup "WHERE" members, lookup "OPTIONS" members with
    | 2, some filter, some options => do
      let filter ← Filter.ofJson filter
      let options ← Options.ofJson options
      .ok ⟨filter, options⟩
    | _, _, _ => .error (.queryKeys (Json.keyList members))
  | _ => .error .queryNotObject

/-- A query from its text, which may have any blank characters around it. -/
def Query.ofText (text : String) : Except ShapeFault Query :=
  match Json.read (Text.trim text) with
  | .ok value => ofJson value
  | .error complaint => .error (.notJson complaint)

end Tabular
