import Tabular.Positions
import Tabular.Query.Field

/-!
# The records that a filter selects

A filter is evaluated to the set of positions that it wants: intersection for
`AND`, union for `OR`, and the complement among all positions for `NOT`. Every
comparison in the filter is checked, whatever the others select, and the first
fault from the left is the outcome.

`Filter.Wants` says of one record alone whether a filter wants it, with the
connectives read as the truth functions. A record that lacks the field of a
comparison is not wanted by it, and operators are read without predicates, as
relations between an operand and a value.
-/

namespace Tabular

section Selecting

variable [Searcher]

/-- Whether a stored value satisfies a predicate; `none` when it has the wrong
type for it. -/
def Predicate.test (p : Predicate) (v : Value) : Option Bool :=
  match p with
  | admittedBy pattern => v.text?.map pattern.admits
  | equal bound => v.number?.map fun x => x.eq bound
  | below bound => v.number?.map fun x => x.lt bound
  | above bound => v.number?.map fun x => bound.lt x

/-- A predicate that can be tested: its pattern is not too large. -/
def Predicate.checkSize (p : Predicate) : Except Error Unit :=
  match p with
  | admittedBy pattern =>
    if pattern.fits then .ok () else .error (.patternTooLarge pattern.literal)
  | _ => .ok ()

namespace Comparison

/-- The field and the predicate of a comparison in a dataset. A fault of the
field comes before one of the operand. -/
def prepare (c : Comparison) (d : Dataset) : Except Error (String × Predicate) := do
  let field ← d.resolve c.field
  let predicate ← c.predicate.mapError Error.ofQueryFault
  predicate.checkSize
  .ok (field, predicate)

/-- Whether a comparison wants a record. -/
def judge (c : Comparison) (field : String) (p : Predicate) (r : Record) : Except Error Bool :=
  match r.get? field with
  | none => .ok false
  | some v =>
    match p.test v with
    | some wanted => .ok wanted
    | none => .error (.type (.stored p.operator c.field v.kindName))

/-- The verdicts on some records, up to the first that cannot be judged. -/
def judgeAll (c : Comparison) (field : String) (p : Predicate) :
    List Record → Except Error (List Bool)
  | [] => .ok []
  | r :: rest => do
    let wanted ← c.judge field p r
    let others ← judgeAll c field p rest
    .ok (wanted :: others)

/-- The positions of the records that a comparison wants. -/
def select (c : Comparison) (d : Dataset) : Except Error Positions := do
  let (field, predicate) ← c.prepare d
  let flags ← c.judgeAll field predicate d.records
  .ok (.ofFlags flags)

end Comparison

/-- The set that a connective makes of two. -/
def Connective.combine : Connective → Positions → Positions → Positions
  | all => Positions.inter
  | any => Positions.union

mutual

/-- The positions of the records that a filter wants. -/
def Filter.select (d : Dataset) : Filter → Except Error Positions
  | .everything => .ok (.below d.size)
  | .logical connective [] => .error (.shape (.noOperands connective))
  | .logical connective (first :: rest) => do
    let found ← select d first
    selectRest d connective found rest
  | .negation operand => do
    let found ← select d operand
    .ok ((Positions.below d.size).diff found)
  | .comparison c => c.select d

/-- What a connective makes of the set so far and further filters. -/
def Filter.selectRest (d : Dataset) (connective : Connective) (found : Positions) :
    List Filter → Except Error Positions
  | [] => .ok found
  | next :: rest => do
    let more ← select d next
    selectRest d connective (connective.combine found more) rest

end

end Selecting

/-! ## One record at a time -/

/-- What an operator asks of a value, given its operand: to be a text that the
pattern describes, or a number that equals the operand, is below it or above it. No
operator accepts a value or an operand of another type. -/
def Operator.Accepts : Operator → Json → Value → Prop
  | .is, .string raw, .text s => ∃ p, Pattern.ofText? raw = some p ∧ p.Describes s
  | .eq, .number bound, .number x => x.eq bound.toBinary64 = true
  | .lt, .number bound, .number x => x.lt bound.toBinary64 = true
  | .gt, .number bound, .number x => bound.toBinary64.lt x = true
  | _, _, _ => False

/-- A comparison wants a record: the record has the field, and the operator
accepts what it holds. -/
def Comparison.Wants (c : Comparison) (d : Dataset) (r : Record) : Prop :=
  ∃ field value, d.resolve c.field = .ok field ∧ r.get? field = some value ∧
    c.operator.Accepts c.literal value

mutual

/-- A filter wants a record. -/
def Filter.Wants (d : Dataset) (r : Record) : Filter → Prop
  | .everything => True
  | .logical .all operands => AllWant d r operands
  | .logical .any operands => AnyWants d r operands
  | .negation operand => ¬ Wants d r operand
  | .comparison c => c.Wants d r

/-- All of some filters want a record. -/
def Filter.AllWant (d : Dataset) (r : Record) : List Filter → Prop
  | [] => True
  | f :: rest => Wants d r f ∧ AllWant d r rest

/-- One of some filters wants a record. -/
def Filter.AnyWants (d : Dataset) (r : Record) : List Filter → Prop
  | [] => False
  | f :: rest => Wants d r f ∨ AnyWants d r rest

end

/-! ## Deciding whether a record is wanted -/

instance (o : Operator) (operand : Json) (v : Value) : Decidable (o.Accepts operand v) := by
  unfold Operator.Accepts
  split
  next raw s =>
    exact match Pattern.ofText? raw with
      | some p => if h : p.Describes s then .isTrue ⟨p, rfl, h⟩
          else .isFalse fun ⟨_, hp, hs⟩ => h (Option.some.inj hp ▸ hs)
      | none => .isFalse fun ⟨_, hp, _⟩ => nomatch hp
  all_goals infer_instance

instance (c : Comparison) (d : Dataset) (r : Record) : Decidable (c.Wants d r) :=
  match hf : d.resolve c.field with
  | .error _ => .isFalse fun ⟨_, _, hf', _⟩ => nomatch hf.symm.trans hf'
  | .ok field =>
    match hv : r.get? field with
    | none => .isFalse fun ⟨_, _, hf', hv', _⟩ => by
        cases hf.symm.trans hf'
        cases hv.symm.trans hv'
    | some value =>
      decidable_of_iff (c.operator.Accepts c.literal value)
        ⟨fun h => ⟨field, value, hf, hv, h⟩, fun ⟨_, _, hf', hv', h⟩ => by
          cases hf.symm.trans hf'
          cases hv.symm.trans hv'
          exact h⟩

mutual

def Filter.decideWants (d : Dataset) (r : Record) : (f : Filter) → Decidable (f.Wants d r)
  | .everything => .isTrue trivial
  | .logical .all operands => Filter.decideAllWant d r operands
  | .logical .any operands => Filter.decideAnyWants d r operands
  | .negation operand =>
    match Filter.decideWants d r operand with
    | .isTrue h => .isFalse fun h' => h' h
    | .isFalse h => .isTrue h
  | .comparison c => inferInstanceAs (Decidable (c.Wants d r))

def Filter.decideAllWant (d : Dataset) (r : Record) :
    (fs : List Filter) → Decidable (Filter.AllWant d r fs)
  | [] => .isTrue trivial
  | f :: rest =>
    have := Filter.decideWants d r f
    have := Filter.decideAllWant d r rest
    inferInstanceAs (Decidable (f.Wants d r ∧ Filter.AllWant d r rest))

def Filter.decideAnyWants (d : Dataset) (r : Record) :
    (fs : List Filter) → Decidable (Filter.AnyWants d r fs)
  | [] => .isFalse id
  | f :: rest =>
    have := Filter.decideWants d r f
    have := Filter.decideAnyWants d r rest
    inferInstanceAs (Decidable (f.Wants d r ∨ Filter.AnyWants d r rest))

end

instance (f : Filter) (d : Dataset) (r : Record) : Decidable (f.Wants d r) :=
  f.decideWants d r

end Tabular
