import Tabular.Dataset.Id
import Tabular.Json.Fault
import Tabular.Query.Pattern

/-!
# Queries

A query has a filter, which says what records it wants, and options, which say
what it shows of them. The operand of a comparison is kept as it was written;
`Comparison.predicate` checks it against the operator, and `Options.check` the
keys of the options, both only when the dataset is known. So what is wrong with
a query comes in two parts: its shape, and its operands.
-/

namespace Tabular

/-- What joins the filters of a list. -/
inductive Connective where
  | all
  | any
  deriving DecidableEq, Repr

def Connective.keyword : Connective → String
  | all => "AND"
  | any => "OR"

inductive Operator where
  /-- A text with a pattern. -/
  | is
  /-- Two numbers for equality. -/
  | eq
  /-- Two numbers, the stored one below. -/
  | lt
  /-- Two numbers, the stored one above. -/
  | gt
  deriving DecidableEq, Repr, Inhabited

namespace Operator

/-- The word of an operator. -/
def keyword : Operator → String
  | is => "IS"
  | eq => "EQ"
  | lt => "LT"
  | gt => "GT"

def all : List Operator := [.is, .eq, .lt, .gt]

/-- The operator of a word. -/
def ofKeyword? (word : String) : Option Operator := all.find? fun o => o.keyword = word

theorem ofKeyword?_keyword (o : Operator) : ofKeyword? o.keyword = some o := by
  cases o <;> decide

end Operator

/-- A comparison of a field with an operand, which may be of any type. -/
structure Comparison where
  /-- The qualified name of the field. -/
  field : String
  operator : Operator
  literal : Json
  deriving Inhabited

/-- Which records are wanted. -/
inductive Filter where
  /-- Every record. -/
  | everything
  /-- The records that all, or any, of the filters want. -/
  | logical (connective : Connective) (operands : List Filter)
  /-- The records that the filter does not want. -/
  | negation (operand : Filter)
  | comparison (comparison : Comparison)
  deriving Inhabited

/-- Induction over a filter: of the filters in a list, each may be assumed to have
the property. -/
@[elab_as_elim, induction_eliminator]
theorem Filter.induct {motive : Filter → Prop} (everything : motive .everything)
    (logical : ∀ connective operands, (∀ f ∈ operands, motive f) →
      motive (.logical connective operands))
    (negation : ∀ operand, motive operand → motive (.negation operand))
    (comparison : ∀ c, motive (.comparison c)) : ∀ f, motive f
  | .everything => everything
  | .logical connective operands => logical connective operands fun f _ =>
      Filter.induct everything logical negation comparison f
  | .negation operand =>
      negation operand (Filter.induct everything logical negation comparison operand)
  | .comparison c => comparison c

mutual

/-- The number of nodes of a filter. -/
def Filter.size : Filter → Nat
  | .everything => 1
  | .logical _ operands => 1 + sizeAll operands
  | .negation operand => 1 + operand.size
  | .comparison _ => 1

/-- The number of nodes of some filters together. -/
def Filter.sizeAll : List Filter → Nat
  | [] => 0
  | f :: rest => f.size + sizeAll rest

end

/-- What is shown of the records. -/
structure Options where
  /-- The qualified names of the fields to show. -/
  columns : List String
  /-- The column to sort by. -/
  order : Option String
  /-- The other keys that were given. -/
  extraKeys : List String
  deriving DecidableEq, Repr

/-- A request for rows. -/
structure Query where
  filter : Filter
  options : Options

/-- The dataset that a query is for: what stands in front of the first
underscore of its first column. -/
def Query.datasetId (q : Query) : String :=
  beforeUnderscore (q.options.columns.head?.getD "")

/-! ## What can be wrong with a query -/

/-- The ways in which a query departs from the grammar. -/
inductive ShapeFault where
  | notJson (complaint : Json.Complaint)
  | queryNotObject
  | queryKeys (found : List String)
  | whereNotObject
  | filterKeys (found : List String)
  | unknownKey (key : String)
  | operandsNotList (connective : Connective)
  | noOperands (connective : Connective)
  | operandNotObject (connective : Connective)
  | negationNotObject
  | comparisonNotObject (operator : Operator)
  | comparisonFields (operator : Operator) (found : List String)
  | optionsNotObject
  | columnsMissing
  | columnsNotList
  | columnNotText
  | columnsEmpty
  | orderNotText
  | extraKey (key : String)
  | orderNotShown (order : String)
  deriving DecidableEq, Repr

/-- Names in brackets. -/
def bracketed (names : List String) : String := "[" ++ String.intercalate ", " names ++ "]"

/-- The wording of a fault of shape. -/
def ShapeFault.message : ShapeFault → String
  | notJson c => "Invalid JSON: " ++ c.message
  | queryNotObject => "Query must be an object"
  | queryKeys found => "Query must contain exactly WHERE and OPTIONS, found " ++ bracketed found
  | whereNotObject => "WHERE must be an object"
  | filterKeys found => "Filter must have exactly one key, found " ++ bracketed found
  | unknownKey key => "Invalid filter key: " ++ key
  | operandsNotList c => c.keyword ++ " must be an array"
  | noOperands c => c.keyword ++ " must contain at least one filter"
  | operandNotObject c => c.keyword ++ " operands must be objects"
  | negationNotObject => "NOT must wrap an object"
  | comparisonNotObject o => o.keyword ++ " must be an object"
  | comparisonFields o found =>
    o.keyword ++ " must reference exactly one field, found " ++ bracketed found
  | optionsNotObject => "OPTIONS must be an object"
  | columnsMissing => "OPTIONS missing COLUMNS"
  | columnsNotList => "COLUMNS must be an array"
  | columnNotText => "COLUMNS entries must be strings"
  | columnsEmpty => "COLUMNS must be a non-empty array"
  | orderNotText => "ORDER must be a string"
  | extraKey key => "Invalid key in OPTIONS: " ++ key
  | orderNotShown order => s!"ORDER key '{order}' must be in COLUMNS"

/-- Two types that should agree. -/
inductive TypeFault where
  /-- The operand is not of the operator's type. -/
  | operand (operator : Operator) (field : String) (literal : String)
  /-- A record holds a value of the other type. -/
  | stored (operator : Operator) (field : String) (found : String)
  deriving DecidableEq, Repr

/-- What an operator compares, as messages call it. -/
def Operator.kindName : Operator → String
  | .is => "string"
  | _ => "number"

/-- The wording of a disagreement of types. -/
def TypeFault.message : TypeFault → String
  | operand o field literal =>
    s!"{o.keyword} on '{field}' expects a {o.kindName}, got {literal}"
  | stored o field found =>
    s!"{o.keyword} on '{field}' requires {o.kindName} values, found {found}"

/-- What is wrong with a query as it is written. -/
inductive QueryFault where
  | shape (fault : ShapeFault)
  | type (fault : TypeFault)
  | pattern (raw : String)
  deriving DecidableEq, Repr

/-- The message of a fault. -/
def QueryFault.message : QueryFault → String
  | shape f => "Malformed query: " ++ f.message
  | type f => "Type mismatch: " ++ f.message
  | pattern raw => s!"Invalid wildcard pattern '{raw}': '*' may only appear at the start or end"

/-! ## Checks that wait for the dataset -/

/-- An operator with an operand of its type. -/
inductive Predicate where
  | admittedBy (pattern : Pattern)
  | equal (bound : Binary64)
  | below (bound : Binary64)
  | above (bound : Binary64)
  deriving DecidableEq, Repr

/-- The operator of a predicate. -/
def Predicate.operator : Predicate → Operator
  | admittedBy _ => .is
  | equal _ => .eq
  | below _ => .lt
  | above _ => .gt

/-- Checks the operand of a comparison: a pattern for `IS`, and a number for the
others. -/
def Comparison.predicate (c : Comparison) : Except QueryFault Predicate :=
  let mismatch : QueryFault := .type (.operand c.operator c.field c.literal.compact)
  match c.operator, c.literal with
  | .is, .string raw =>
    match Pattern.ofText? raw with
    | some p => .ok (.admittedBy p)
    | none => .error (.pattern raw)
  | .eq, .number n => .ok (.equal n.toBinary64)
  | .lt, .number n => .ok (.below n.toBinary64)
  | .gt, .number n => .ok (.above n.toBinary64)
  | _, _ => .error mismatch

/-- Checks the options of a query: no other keys, of which the first is named,
and an order that is shown. -/
def Options.check (o : Options) : Except QueryFault Unit :=
  match o.extraKeys, o.order with
  | key :: _, _ => .error (.shape (.extraKey key))
  | [], some order =>
    if order ∈ o.columns then .ok () else .error (.shape (.orderNotShown order))
  | [], none => .ok ()

end Tabular
