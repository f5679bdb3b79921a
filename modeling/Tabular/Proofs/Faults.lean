import Tabular.Proofs.Grammar
import Tabular.Proofs.Projection
import Tabular.Proofs.Selection

/-!
# The first fault of a filter

A filter is evaluated leaf by leaf, from left to right, and every leaf is checked
whatever the others select. So the fault of a filter is that of its first leaf that
has one (`Filter.faultOf_select`); the connectives around it do not matter.

A leaf is a comparison or a list without operands, which the grammar does not have.
What a comparison needs of a dataset is `Comparison.AppliesTo`, and what it fails
with where something is missing `Comparison.FailsIn`.
-/

namespace Tabular

/-- An operand is of the type that an operator compares with. -/
def Operator.Takes : Operator → Json → Prop
  | .is, .string _ => True
  | .is, _ => False
  | _, .number _ => True
  | _, _ => False

/-- There is one type that an operator does not compare. -/
theorem Operator.kindName_eq_of_not_suits {o : Operator} {v w : Value} (hv : ¬ o.Suits v)
    (hw : ¬ o.Suits w) : v.kindName = w.kindName := by
  cases o <;> cases v <;> cases w <;> simp_all [Operator.Suits, Value.kindName]

section Searching

variable [Searcher]

/-! ## What a comparison needs -/

/-- A comparison can be evaluated in a dataset: its field is one of the dataset's,
its operand is of the operator's type, a pattern has its stars at the ends and is
not too large, and the records that have the field hold values of that type. -/
structure Comparison.AppliesTo (c : Comparison) (d : Dataset) : Prop where
  operand : c.operator.Takes c.literal
  pattern : ∀ raw, c.literal = .string raw →
    ∃ p, Pattern.ofText? raw = some p ∧ p.fits = true
  field : ∃ field, d.resolve c.field = .ok field ∧
    Comparison.Uniform c.operator field d.records

/-- What a comparison fails with: the first of these that is the case. -/
inductive Comparison.FailsIn (c : Comparison) (d : Dataset) : Error → Prop
  | field {e : Error} (h : d.resolve c.field = .error e) : FailsIn c d e
  | operand {field : String} (hfield : d.resolve c.field = .ok field)
      (h : ¬ c.operator.Takes c.literal) :
      FailsIn c d (.type (.operand c.operator c.field c.literal.compact))
  | pattern {field raw : String} (hfield : d.resolve c.field = .ok field)
      (hoperand : c.operator.Takes c.literal) (hraw : c.literal = .string raw)
      (h : Pattern.ofText? raw = none) : FailsIn c d (.pattern raw)
  | tooLarge {field raw : String} {p : Pattern} (hfield : d.resolve c.field = .ok field)
      (hoperand : c.operator.Takes c.literal) (hraw : c.literal = .string raw)
      (hp : Pattern.ofText? raw = some p) (h : p.fits = false) :
      FailsIn c d (.patternTooLarge p.literal)
  | stored {field : String} {r : Record} {v : Value} (hfield : d.resolve c.field = .ok field)
      (hoperand : c.operator.Takes c.literal)
      (hpattern : ∀ raw, c.literal = .string raw →
        ∃ p, Pattern.ofText? raw = some p ∧ p.fits = true)
      (hr : r ∈ d.records) (hv : r.get? field = some v) (h : ¬ c.operator.Suits v) :
      FailsIn c d (.type (.stored c.operator c.field v.kindName))

namespace Comparison

theorem judge_eq_error_iff {c : Comparison} {field : String} {p : Predicate} {r : Record}
    {e : Error} : c.judge field p r = .error e ↔ ∃ v, r.get? field = some v ∧
      ¬ p.operator.Suits v ∧ e = .type (.stored p.operator c.field v.kindName) := by
  unfold judge
  cases hv : r.get? field with
  | none => simp
  | some v =>
    cases ht : p.test v with
    | none =>
      have hsuits := Predicate.test_eq_none_iff.mp ht
      simp [ht, hsuits, eq_comm]
    | some wanted =>
      have hsuits : p.operator.Suits v := by
        by_contra hsuits
        rw [Predicate.test_eq_none_iff.mpr hsuits] at ht
        cases ht
      simp [ht, hsuits]

/-- The operand makes a predicate that can be looked for iff it is of the right type,
its stars are at the ends and it is not too large. -/
theorem exists_predicate_iff {c : Comparison} :
    (∃ p, c.predicate = .ok p ∧ p.checkSize = .ok ()) ↔ c.operator.Takes c.literal ∧
      ∀ raw, c.literal = .string raw → ∃ p, Pattern.ofText? raw = some p ∧ p.fits = true := by
  obtain ⟨field, operator, literal⟩ := c
  unfold Comparison.predicate
  cases operator <;> cases literal <;> simp [Operator.Takes, Predicate.checkSize]
  rename_i raw
  cases Pattern.ofText? raw with
  | none => simp
  | some p => cases hp : p.fits <;> simp [hp]

/-- A comparison can be evaluated iff it has what it needs. -/
theorem exists_select_iff {c : Comparison} {d : Dataset} :
    (∃ found, c.select d = .ok found) ↔ c.AppliesTo d := by
  constructor
  · rintro ⟨found, h⟩
    obtain ⟨field, p, hfield, hp, hsize, huniform, -⟩ := select_eq_ok_iff.mp h
    obtain ⟨hoperand, hpattern⟩ := exists_predicate_iff.mp ⟨p, hp, hsize⟩
    rw [(predicate_eq_ok_iff.mp hp).1] at huniform
    exact ⟨hoperand, hpattern, field, hfield, huniform⟩
  · rintro ⟨hoperand, hpattern, field, hfield, huniform⟩
    obtain ⟨p, hp, hsize⟩ := exists_predicate_iff.mpr ⟨hoperand, hpattern⟩
    rw [← (predicate_eq_ok_iff.mp hp).1] at huniform
    exact ⟨_, select_eq_ok_iff.mpr ⟨field, p, hfield, hp, hsize, huniform, rfl⟩⟩

omit [Searcher] in
theorem predicate_eq_error_iff {c : Comparison} {fault : QueryFault} :
    c.predicate = .error fault ↔
      (¬ c.operator.Takes c.literal ∧
        fault = .type (.operand c.operator c.field c.literal.compact)) ∨
      ∃ raw, c.operator.Takes c.literal ∧ c.literal = .string raw ∧
        Pattern.ofText? raw = none ∧ fault = .pattern raw := by
  obtain ⟨field, operator, literal⟩ := c
  unfold Comparison.predicate
  cases operator <;> cases literal <;> simp [Operator.Takes, eq_comm]
  rename_i raw
  cases Pattern.ofText? raw <;> simp

/-- Preparing fails with the first of field, operand, pattern and its size. -/
theorem failsIn_of_prepare {c : Comparison} {d : Dataset} {e : Error}
    (h : c.prepare d = .error e) : c.FailsIn d e := by
  rw [prepare, bind_eq_error_iff] at h
  rcases h with hfield | ⟨field, hfield, h⟩
  · exact .field hfield
  rcases bind_eq_error_iff.mp h with hp | ⟨p, hp, h⟩
  · obtain ⟨fault, hfault, rfl⟩ := mapError_eq_error_iff.mp hp
    rcases predicate_eq_error_iff.mp hfault with ⟨hoperand, rfl⟩ | ⟨raw, hoperand, hraw, hnone, rfl⟩
    · exact .operand hfield hoperand
    · exact .pattern hfield hoperand hraw hnone
  obtain ⟨hoperator, hliteral⟩ := predicate_eq_ok_iff.mp (mapError_eq_ok_iff.mp hp)
  rcases bind_eq_error_iff.mp h with hsize | ⟨_, _, h⟩
  · -- Only a pattern has a size that can be too large.
    cases p with
    | admittedBy pattern =>
      obtain ⟨raw, hraw, hpattern⟩ := hliteral
      have hoperand : c.operator.Takes c.literal := by
        rw [← hoperator, hraw]
        trivial
      cases hfits : pattern.fits with
      | true => simp [Predicate.checkSize, hfits] at hsize
      | false =>
        obtain rfl : .patternTooLarge pattern.literal = e := by
          simpa [Predicate.checkSize, hfits] using hsize
        exact .tooLarge hfield hoperand hraw hpattern hfits
    | equal bound | below bound | above bound => cases hsize
  · cases h

theorem failsIn_of_select {c : Comparison} {d : Dataset} {e : Error}
    (h : c.select d = .error e) : c.FailsIn d e := by
  rw [select, bind_eq_error_iff] at h
  rcases h with hprepare | ⟨⟨field, p⟩, hprepare, h⟩
  · exact failsIn_of_prepare hprepare
  obtain ⟨hfield, hp, hsize⟩ := prepare_eq_ok_iff.mp hprepare
  obtain ⟨hoperand, hpattern⟩ := exists_predicate_iff.mp ⟨p, hp, hsize⟩
  rcases bind_eq_error_iff.mp h with hjudge | ⟨_, _, h⟩
  · rw [judgeAll_eq_mapM] at hjudge
    obtain ⟨front, r, back, hrecords, -, hr⟩ := mapM_eq_error_iff.mp hjudge
    obtain ⟨v, hv, hsuits, rfl⟩ := judge_eq_error_iff.mp hr
    rw [(predicate_eq_ok_iff.mp hp).1] at hsuits ⊢
    exact .stored hfield hoperand hpattern (by simp [hrecords]) hv hsuits
  · cases h

/-- A comparison that fails somehow does not apply. -/
theorem not_appliesTo_of_failsIn {c : Comparison} {d : Dataset} {e : Error}
    (h : c.FailsIn d e) : ¬ c.AppliesTo d := by
  rintro ⟨hoperand, hpattern, field, hfield, huniform⟩
  cases h with
  | field h =>
    rw [hfield] at h
    cases h
  | operand _ h => exact h hoperand
  | pattern _ _ hraw h =>
    obtain ⟨p, hp, -⟩ := hpattern _ hraw
    rw [h] at hp
    cases hp
  | tooLarge _ _ hraw hp h =>
    obtain ⟨p', hp', hfits⟩ := hpattern _ hraw
    rw [hp] at hp'
    cases hp'
    rw [h] at hfits
    cases hfits
  | stored hfield' _ _ hr hv h =>
    rw [hfield] at hfield'
    cases hfield'
    exact h (huniform _ hr _ hv)

/-- A comparison does not fail in two ways. -/
theorem failsIn_unique {c : Comparison} {d : Dataset} {e e' : Error} (h : c.FailsIn d e)
    (h' : c.FailsIn d e') : e = e' := by
  -- Two different ways exclude each other; only the stored values can be several, and
  -- they are all of the one type that does not suit.
  cases h <;> cases h' <;> simp_all
  exact Operator.kindName_eq_of_not_suits (by assumption) (by assumption)

/-- A comparison fails with the first thing that is missing. -/
theorem select_eq_error_iff {c : Comparison} {d : Dataset} {e : Error} :
    c.select d = .error e ↔ c.FailsIn d e := by
  constructor
  · exact failsIn_of_select
  · intro h
    cases hselect : c.select d with
    | ok found => exact absurd (exists_select_iff.mp ⟨found, hselect⟩) (not_appliesTo_of_failsIn h)
    | error e' => rw [failsIn_unique h (failsIn_of_select hselect)]

end Comparison

end Searching

/-! ## Leaves -/

/-- What a filter is made of below its connectives. -/
inductive Leaf where
  | comparison (comparison : Comparison)
  /-- A list without operands. -/
  | noOperands (connective : Connective)

/-- The comparison that a leaf is. -/
def Leaf.comparison? : Leaf → Option Comparison
  | .comparison c => some c
  | .noOperands _ => none

mutual

/-- The leaves of a filter, from left to right. -/
def Filter.leaves : Filter → List Leaf
  | .everything => []
  | .logical connective [] => [.noOperands connective]
  | .logical _ (first :: rest) => first.leaves ++ leavesAll rest
  | .negation operand => operand.leaves
  | .comparison c => [.comparison c]

/-- The leaves of some filters in turn. -/
def Filter.leavesAll : List Filter → List Leaf
  | [] => []
  | f :: rest => f.leaves ++ leavesAll rest

end

/-- The comparisons of a filter, from left to right. -/
def Filter.comparisons (f : Filter) : List Comparison := f.leaves.filterMap Leaf.comparison?

/-- What a leaf fails with in a dataset, if it does. -/
def Leaf.fault? [Searcher] (d : Dataset) : Leaf → Option Error
  | .comparison c => faultOf (c.select d)
  | .noOperands connective => some (.shape (.noOperands connective))

/-- What a leaf fails with: a comparison with the first thing that is missing, and a list
without operands with that. -/
inductive Leaf.FailsIn [Searcher] (d : Dataset) : Leaf → Error → Prop
  | comparison {c : Comparison} {e : Error} (h : c.FailsIn d e) : FailsIn d (.comparison c) e
  | noOperands (connective : Connective) :
      FailsIn d (.noOperands connective) (.shape (.noOperands connective))

theorem Leaf.fault?_eq_some_iff [Searcher] {d : Dataset} {leaf : Leaf} {e : Error} :
    leaf.fault? d = some e ↔ leaf.FailsIn d e := by
  cases leaf with
  | comparison c =>
    rw [fault?, faultOf_eq_some_iff, Comparison.select_eq_error_iff]
    constructor
    · exact .comparison
    · intro h
      cases h with
      | comparison h => exact h
  | noOperands connective =>
    rw [fault?, Option.some.injEq]
    constructor
    · rintro rfl
      exact .noOperands connective
    · intro h
      cases h
      rfl

theorem Leaf.fault?_eq_none_iff [Searcher] {d : Dataset} {leaf : Leaf} :
    leaf.fault? d = none ↔ ∀ e, ¬ leaf.FailsIn d e := by
  rw [Option.eq_none_iff_forall_ne_some]
  simp only [ne_eq, fault?_eq_some_iff]

/-! ## Plain errors -/

/-- An error that says what is wrong with a request as it stands. It has no causes of its
own, and asking for less does not help. -/
structure Error.Plain (e : Error) : Prop where
  causes : e.causes = []
  final : e.retryable = false

theorem Error.plain_ofQueryFault (fault : QueryFault) : (Error.ofQueryFault fault).Plain := by
  cases fault with
  | shape | type | pattern => exact ⟨rfl, rfl⟩

theorem Dataset.plain_of_resolve {d : Dataset} {name : String} {e : Error}
    (h : d.resolve name = .error e) : e.Plain := by
  rcases resolve_error_cases h with rfl | rfl
  · exact ⟨rfl, rfl⟩
  · exact ⟨rfl, rfl⟩

theorem Dataset.plain_of_columns {d : Dataset} {names : List String} {e : Error}
    (h : d.columns names = .error e) : e.Plain := by
  obtain ⟨-, name, -, -, -, hname⟩ := columns_eq_error_iff.mp h
  exact plain_of_resolve hname

theorem Leaf.FailsIn.plain [Searcher] {d : Dataset} {leaf : Leaf} {e : Error}
    (h : leaf.FailsIn d e) : e.Plain := by
  cases h with
  | noOperands connective => exact ⟨rfl, rfl⟩
  | comparison h =>
    cases h with
    | field h => exact Dataset.plain_of_resolve h
    | operand | pattern | tooLarge | stored => exact ⟨rfl, rfl⟩

/-! ## The leaves of a filter -/

namespace Filter

theorem leavesAll_eq_flatMap (fs : List Filter) : leavesAll fs = fs.flatMap leaves := by
  induction fs with
  | nil => rfl
  | cons f fs ih => rw [leavesAll, ih, List.flatMap_cons]

theorem mem_leavesAll {leaf : Leaf} {fs : List Filter} :
    leaf ∈ leavesAll fs ↔ ∃ f ∈ fs, leaf ∈ f.leaves := by
  rw [leavesAll_eq_flatMap, List.mem_flatMap]

/-- A list has the comparisons of its operands. -/
theorem comparisons_subset_of_mem {connective : Connective} {fs : List Filter} {f : Filter}
    (hf : f ∈ fs) : f.comparisons ⊆ (logical connective fs).comparisons := by
  intro c hc
  obtain ⟨leaf, hleaf, hcomparison⟩ := List.mem_filterMap.mp hc
  refine List.mem_filterMap.mpr ⟨leaf, ?_, hcomparison⟩
  cases fs with
  | nil => cases hf
  | cons g gs => exact mem_leavesAll.mpr ⟨f, hf, hleaf⟩

theorem eq_map_comparison? {leaves : List Leaf} (h : ∀ leaf ∈ leaves, ∃ c, leaf = .comparison c) :
    leaves = (leaves.filterMap Leaf.comparison?).map .comparison := by
  induction leaves with
  | nil => rfl
  | cons leaf leaves ih =>
    obtain ⟨⟨c, rfl⟩, hrest⟩ := List.forall_mem_cons.mp h
    show _ = Leaf.comparison c :: (leaves.filterMap Leaf.comparison?).map Leaf.comparison
    rw [← ih hrest]

/-- In the grammar every leaf is a comparison. -/
theorem WellFormed.leaves_eq {f : Filter} (h : f.WellFormed) :
    f.leaves = f.comparisons.map .comparison := by
  have hall : ∀ leaf ∈ f.leaves, ∃ c, leaf = .comparison c := by
    induction h with
    | everything =>
      intro leaf hleaf
      cases hleaf
    | @logical connective operands hne _ ih =>
      intro leaf hleaf
      cases operands with
      | nil => exact absurd rfl hne
      | cons f fs =>
        obtain ⟨g, hg, hleaf⟩ := mem_leavesAll.mp (show leaf ∈ leavesAll (f :: fs) from hleaf)
        exact ih g hg leaf hleaf
    | negation _ ih => exact ih
    | comparison c =>
      intro leaf hleaf
      exact ⟨c, List.mem_singleton.mp hleaf⟩
  exact eq_map_comparison? hall

/-- The first fault among the leaves of some filters is the first among the filters. -/
theorem findSome?_leavesAll {fault : Leaf → Option Error} {faultIn : Filter → Option Error}
    {fs : List Filter} (h : ∀ f ∈ fs, faultIn f = f.leaves.findSome? fault) :
    fs.findSome? faultIn = (leavesAll fs).findSome? fault := by
  rw [leavesAll_eq_flatMap]
  exact findSome?_flatMap h

variable [Searcher]

/-- **The first leaf that fails decides**, whatever stands around it. -/
theorem faultOf_select (f : Filter) (d : Dataset) :
    faultOf (f.select d) = f.leaves.findSome? (Leaf.fault? d) := by
  induction f with
  | everything => rfl
  | logical connective fs ih =>
    cases fs with
    | nil => rfl
    | cons f fs =>
      have hfirst : faultOf (f.select d) = f.leaves.findSome? (Leaf.fault? d) :=
        ih f List.mem_cons_self
      have hrest : faultOf (fs.mapM (select d)) = (leavesAll fs).findSome? (Leaf.fault? d) := by
        rw [faultOf_mapM]
        exact findSome?_leavesAll fun g hg => ih g (List.mem_cons_of_mem _ hg)
      -- The rest is evaluated whatever the first filter selects, and combining cannot fail.
      rw [select_logical, faultOf_bind (y := faultOf (fs.mapM (select d))), hfirst, hrest, leaves,
        List.findSome?_append]
      intro s
      rw [faultOf_bind (y := none) fun _ => rfl, Option.or_none]
  | negation f ih =>
    have hoperand : faultOf (f.select d) = f.leaves.findSome? (Leaf.fault? d) := ih
    rw [select, faultOf_bind (y := none) fun _ => rfl, Option.or_none, hoperand, leaves]
  | comparison c =>
    rw [select, leaves, List.findSome?_singleton]
    rfl

/-- A filter of the grammar can be evaluated iff all of its comparisons can. -/
theorem exists_select_iff {f : Filter} (hf : f.WellFormed) {d : Dataset} :
    (∃ found, f.select d = .ok found) ↔ ∀ c ∈ f.comparisons, c.AppliesTo d := by
  rw [← faultOf_eq_none_iff, faultOf_select, hf.leaves_eq, List.findSome?_map,
    List.findSome?_eq_none_iff]
  simp only [Function.comp_apply, Leaf.fault?, faultOf_eq_none_iff, Comparison.exists_select_iff]

/-- It fails as the first of them that does. -/
theorem select_eq_error_iff {f : Filter} (hf : f.WellFormed) {d : Dataset} {e : Error} :
    f.select d = .error e ↔ ∃ front c back, f.comparisons = front ++ c :: back ∧
      (∀ c' ∈ front, c'.AppliesTo d) ∧ c.FailsIn d e := by
  rw [← faultOf_eq_some_iff, faultOf_select, hf.leaves_eq, List.findSome?_map,
    List.findSome?_eq_some_iff]
  simp only [Function.comp_apply, Leaf.fault?, faultOf_eq_none_iff, Comparison.exists_select_iff,
    faultOf_eq_some_iff, Comparison.select_eq_error_iff]
  constructor
  · rintro ⟨front, c, back, heq, hc, hfront⟩
    exact ⟨front, c, back, heq, hfront, hc⟩
  · rintro ⟨front, c, back, heq, hfront, hc⟩
    exact ⟨front, c, back, heq, hc, hfront⟩

/-- What a filter fails with is plain. -/
theorem plain_of_select {f : Filter} {d : Dataset} {e : Error} (h : f.select d = .error e) :
    e.Plain := by
  rw [← faultOf_eq_some_iff, faultOf_select] at h
  obtain ⟨leaf, -, hleaf⟩ := List.exists_of_findSome?_eq_some h
  exact (Leaf.fault?_eq_some_iff.mp hleaf).plain

/-- **A filter fails as its first leaf that fails.** Any filter fails iff one of its leaves
does, and with what the first of them fails with, from left to right. So filters with the same
leaves fail alike, whatever connectives stand around the leaves and whatever has been selected
before. The fault of a field, with which a comparison fails first, depends on whether its name
is qualified by the id of the dataset. -/
theorem fails_as_first_leaf (f : Filter) (d : Dataset) :
    (∀ e, f.select d = .error e ↔ ∃ front leaf back, f.leaves = front ++ leaf :: back ∧
      (∀ l ∈ front, ∀ e', ¬ l.FailsIn d e') ∧ leaf.FailsIn d e) ∧
    ((∃ e, f.select d = .error e) ↔ ∃ leaf ∈ f.leaves, ∃ e, leaf.FailsIn d e) ∧
    (∀ g : Filter, g.leaves = f.leaves → ∀ e, g.select d = .error e ↔ f.select d = .error e) ∧
    ∀ name e, d.resolve name = .error e ↔
      ((∀ field, splitQualified name ≠ some (d.id, field)) ∧ e = .foreignField name d.id) ∨
      ∃ field, splitQualified name = some (d.id, field) ∧ d.hasField field = false ∧
        e = .unknownField name d.id := by
  have hfault : ∀ (g : Filter) e, g.select d = .error e ↔
      g.leaves.findSome? (Leaf.fault? d) = some e := by
    intro g e
    rw [← faultOf_eq_some_iff, faultOf_select]
  refine ⟨?_, ?_, ?_, fun _ _ => Dataset.resolve_eq_error_iff⟩
  · intro e
    rw [hfault, List.findSome?_eq_some_iff]
    simp only [Leaf.fault?_eq_some_iff, Leaf.fault?_eq_none_iff]
    constructor
    · rintro ⟨front, leaf, back, heq, hleaf, hfront⟩
      exact ⟨front, leaf, back, heq, hfront, hleaf⟩
    · rintro ⟨front, leaf, back, heq, hfront, hleaf⟩
      exact ⟨front, leaf, back, heq, hleaf, hfront⟩
  · simp only [hfault, ← Option.isSome_iff_exists, List.findSome?_isSome_iff,
      ← Leaf.fault?_eq_some_iff]
  · intro g hleaves e
    rw [hfault, hfault, hleaves]

end Filter

/-- An operand that wants nothing, one that wants everything and a negation hide nothing: each
of these fails with the unknown field, before the list without operands. -/
theorem covered_leaf_fails :
    let unknown : Filter := .comparison ⟨"rooms_area", .eq, .number (.integer 1)⟩
    let f : Filter := .logical .all [.negation .everything, unknown, .logical .any []]
    let g : Filter := .negation (.logical .any [.everything, .negation unknown, .logical .any []])
    g.leaves = f.leaves ∧ f.select sampleRooms = .error (.unknownField "rooms_area" "rooms") ∧
      g.select sampleRooms = .error (.unknownField "rooms_area" "rooms") ∧
      ∃ leaf ∈ f.leaves, ∃ e, leaf.FailsIn sampleRooms e := by
  intro unknown f g
  have hf : f.select sampleRooms = .error (.unknownField "rooms_area" "rooms") := by
    decide +kernel
  obtain ⟨-, hfails, halike, -⟩ := Filter.fails_as_first_leaf f sampleRooms
  exact ⟨rfl, hf, (halike g rfl _).mpr hf, hfails.mp ⟨_, hf⟩⟩

end Tabular
