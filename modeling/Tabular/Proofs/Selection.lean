import Tabular.Proofs.Fallible
import Tabular.Query.Selection

/-!
# What a filter selects

A filter is evaluated with sets of positions; what it means is said of one record
at a time by `Filter.Wants`. The two agree: a filter that can be evaluated selects
the positions of the records that it wants and no others (`select_eq_wanted`).

For each function of the evaluation there is one lemma that says when it succeeds
and with what:

* a comparison by `Comparison.select_eq_ok_iff`, through the predicate that its
  operand makes;
* a list of filters by `Filter.select_logical`, as the sets of its members that the
  connective combines from the first one on.

At one position, a filter is a formula over its comparisons (`Filter.Holds`), and this is
the one induction over filters that compares sets with truth (`mem_select_iff_holds`).
-/

namespace Tabular

/-! ## Sets that a connective combines -/

theorem mem_foldl_inter {i : Nat} {s : Positions} {sets : List Positions} :
    i ∈ sets.foldl Positions.inter s ↔ i ∈ s ∧ ∀ t ∈ sets, i ∈ t := by
  induction sets generalizing s with
  | nil => simp
  | cons t sets ih =>
    rw [List.foldl_cons, ih, Positions.mem_inter, List.forall_mem_cons, and_assoc]

theorem mem_foldl_union {i : Nat} {s : Positions} {sets : List Positions} :
    i ∈ sets.foldl Positions.union s ↔ i ∈ s ∨ ∃ t ∈ sets, i ∈ t := by
  induction sets generalizing s with
  | nil => simp
  | cons t sets ih =>
    rw [List.foldl_cons, ih, Positions.mem_union, List.exists_mem_cons_iff, or_assoc]

/-- Nothing is in a combined set that was in none of its parts. -/
theorem mem_of_mem_foldl_combine {i : Nat} {connective : Connective} {s : Positions}
    {sets : List Positions} (h : i ∈ sets.foldl connective.combine s) :
    ∃ t ∈ s :: sets, i ∈ t := by
  cases connective with
  | all => exact ⟨s, List.mem_cons_self, (mem_foldl_inter.mp h).1⟩
  | any =>
    rcases mem_foldl_union.mp h with h | ⟨t, ht, h⟩
    · exact ⟨s, List.mem_cons_self, h⟩
    · exact ⟨t, List.mem_cons_of_mem _ ht, h⟩

/-! ## Operators and operands -/

/-- A value is of the type that an operator compares. -/
def Operator.Suits : Operator → Value → Prop
  | .is, .text _ => True
  | .is, .number _ => False
  | _, .text _ => False
  | _, .number _ => True

instance (o : Operator) (v : Value) : Decidable (o.Suits v) :=
  match o, v with
  | .is, .text _ | .eq, .number _ | .lt, .number _ | .gt, .number _ => .isTrue trivial
  | .is, .number _ | .eq, .text _ | .lt, .text _ | .gt, .text _ => .isFalse id

/-- The predicate of a comparison is the operator with the operand read. -/
theorem Comparison.predicate_eq_ok_iff {c : Comparison} {p : Predicate} :
    c.predicate = .ok p ↔ p.operator = c.operator ∧
      match p with
      | .admittedBy pattern =>
        ∃ raw, c.literal = .string raw ∧ Pattern.ofText? raw = some pattern
      | .equal bound | .below bound | .above bound =>
        ∃ n, c.literal = .number n ∧ n.toBinary64 = bound := by
  obtain ⟨field, operator, literal⟩ := c
  unfold Comparison.predicate
  cases operator <;> cases literal <;> cases p <;>
    simp [Predicate.operator]
  all_goals
    rename_i raw pattern
    cases h : Pattern.ofText? raw <;> simp

/-! ## Filters as formulas -/

mutual

/-- A filter as a formula: whether it holds, given which comparisons do. -/
def Filter.Holds (holds : Comparison → Prop) : Filter → Prop
  | .everything => True
  | .logical .all operands => AllHold holds operands
  | .logical .any operands => AnyHolds holds operands
  | .negation operand => ¬ Holds holds operand
  | .comparison c => holds c

/-- All of some filters hold. -/
def Filter.AllHold (holds : Comparison → Prop) : List Filter → Prop
  | [] => True
  | f :: rest => f.Holds holds ∧ AllHold holds rest

/-- One of some filters holds. -/
def Filter.AnyHolds (holds : Comparison → Prop) : List Filter → Prop
  | [] => False
  | f :: rest => f.Holds holds ∨ AnyHolds holds rest

end

namespace Filter

variable {holds : Comparison → Prop}

theorem holds_all_iff {fs : List Filter} :
    (logical .all fs).Holds holds ↔ ∀ f ∈ fs, f.Holds holds := by
  show AllHold holds fs ↔ _
  induction fs with
  | nil => simp [AllHold]
  | cons f fs ih => rw [AllHold, ih, List.forall_mem_cons]

theorem holds_any_iff {fs : List Filter} :
    (logical .any fs).Holds holds ↔ ∃ f ∈ fs, f.Holds holds := by
  show AnyHolds holds fs ↔ _
  induction fs with
  | nil => simp [AnyHolds]
  | cons f fs ih => rw [AnyHolds, ih, List.exists_mem_cons_iff]

theorem allWant_iff {d : Dataset} {r : Record} {fs : List Filter} :
    AllWant d r fs ↔ ∀ f ∈ fs, f.Wants d r := by
  induction fs with
  | nil => simp [AllWant]
  | cons f fs ih => rw [AllWant, ih, List.forall_mem_cons]

theorem anyWants_iff {d : Dataset} {r : Record} {fs : List Filter} :
    AnyWants d r fs ↔ ∃ f ∈ fs, f.Wants d r := by
  induction fs with
  | nil => simp [AnyWants]
  | cons f fs ih => rw [AnyWants, ih, List.exists_mem_cons_iff]

/-- A filter wants a record iff it holds, given which comparisons want the record. -/
theorem wants_iff_holds {d : Dataset} {r : Record} {f : Filter} :
    f.Wants d r ↔ f.Holds fun c => c.Wants d r := by
  induction f with
  | everything => exact Iff.rfl
  | logical connective fs ih =>
    cases connective with
    | all =>
      rw [holds_all_iff]
      exact allWant_iff.trans (forall₂_congr ih)
    | any =>
      rw [holds_any_iff]
      refine anyWants_iff.trans (exists_congr fun f => ?_)
      exact and_congr_right fun hf => ih f hf
  | negation f ih => exact not_congr ih
  | comparison c => exact Iff.rfl

end Filter

section Searching

variable [Searcher]

/-- A predicate can be tested on the values of its operator's type. -/
theorem Predicate.test_eq_none_iff {p : Predicate} {v : Value} :
    p.test v = none ↔ ¬ p.operator.Suits v := by
  cases p <;> cases v <;>
    simp [Predicate.test, Predicate.operator, Operator.Suits, Value.text?, Value.number?]

/-- What a predicate that can be looked for accepts is what the operator asks. -/
theorem Comparison.test_eq_true_iff [LawfulSearcher] {c : Comparison} {p : Predicate}
    (hp : c.predicate = .ok p) (hsize : p.checkSize = .ok ()) {v : Value} :
    p.test v = some true ↔ c.operator.Accepts c.literal v := by
  obtain ⟨hoperator, hliteral⟩ := Comparison.predicate_eq_ok_iff.mp hp
  cases p with
  | admittedBy pattern =>
    obtain ⟨raw, hraw, hpattern⟩ := hliteral
    -- A searcher finds what a pattern describes only if it takes the pattern.
    have hfits : pattern.fits = true := by
      by_contra hfits
      simp [Predicate.checkSize, hfits] at hsize
    rw [← hoperator, hraw]
    cases v <;>
      simp [Predicate.test, Predicate.operator, Operator.Accepts, Value.text?, hpattern,
        Pattern.admits_iff hfits]
  | equal bound | below bound | above bound =>
    obtain ⟨n, hn, rfl⟩ := hliteral
    rw [← hoperator, hn]
    cases v <;>
      simp [Predicate.test, Predicate.operator, Operator.Accepts, Value.number?]

/-! ## Comparisons -/

namespace Comparison

/-- Whether a predicate accepts what a record holds in a field; a record without
the field is not accepted. -/
def verdict (p : Predicate) (field : String) (r : Record) : Bool :=
  ((r.get? field).bind p.test).getD false

/-- What some records hold in a field, where they have it, is of one type. -/
def Uniform (o : Operator) (field : String) (rs : List Record) : Prop :=
  ∀ r ∈ rs, ∀ v, r.get? field = some v → o.Suits v

theorem prepare_eq_ok_iff {c : Comparison} {d : Dataset} {field : String} {p : Predicate} :
    c.prepare d = .ok (field, p) ↔
      d.resolve c.field = .ok field ∧ c.predicate = .ok p ∧ p.checkSize = .ok () := by
  rw [prepare, bind_eq_ok_iff]
  constructor
  · rintro ⟨field', hfield, h⟩
    obtain ⟨p', hp, h⟩ := bind_eq_ok_iff.mp h
    obtain ⟨_, hsize, h⟩ := bind_eq_ok_iff.mp h
    cases h
    exact ⟨hfield, mapError_eq_ok_iff.mp hp, hsize⟩
  · rintro ⟨hfield, hp, hsize⟩
    refine ⟨field, hfield, bind_eq_ok_iff.mpr ⟨p, mapError_eq_ok_iff.mpr hp, ?_⟩⟩
    exact bind_eq_ok_iff.mpr ⟨(), hsize, rfl⟩

theorem judge_eq_ok_iff {c : Comparison} {field : String} {p : Predicate} {r : Record}
    {b : Bool} : c.judge field p r = .ok b ↔
      (∀ v, r.get? field = some v → p.operator.Suits v) ∧ b = verdict p field r := by
  unfold judge verdict
  cases hv : r.get? field with
  | none => simp [eq_comm]
  | some v =>
    cases ht : p.test v with
    | none =>
      have hsuits := Predicate.test_eq_none_iff.mp ht
      simp [hsuits, ht]
    | some wanted =>
      have hsuits : p.operator.Suits v := by
        by_contra hsuits
        rw [Predicate.test_eq_none_iff.mpr hsuits] at ht
        cases ht
      simp [hsuits, ht, eq_comm]

theorem judgeAll_eq_mapM (c : Comparison) (field : String) (p : Predicate)
    (rs : List Record) : c.judgeAll field p rs = rs.mapM (c.judge field p) := by
  induction rs with
  | nil => rfl
  | cons r rs ih =>
    rw [mapM_cons_except, ← ih]
    rfl

theorem judgeAll_eq_ok_iff {c : Comparison} {field : String} {p : Predicate}
    {rs : List Record} {flags : List Bool} : c.judgeAll field p rs = .ok flags ↔
      Uniform p.operator field rs ∧ flags = rs.map (verdict p field) := by
  rw [judgeAll_eq_mapM, mapM_eq_ok_iff]
  induction rs generalizing flags with
  | nil => simp [Uniform]
  | cons r rs ih =>
    rw [List.forall₂_cons_left_iff]
    constructor
    · rintro ⟨b, flags', hb, hflags, rfl⟩
      obtain ⟨hr, rfl⟩ := judge_eq_ok_iff.mp hb
      obtain ⟨hrs, rfl⟩ := ih.mp hflags
      exact ⟨List.forall_mem_cons.mpr ⟨hr, hrs⟩, rfl⟩
    · rintro ⟨huniform, rfl⟩
      obtain ⟨hr, hrs⟩ := List.forall_mem_cons.mp huniform
      exact ⟨_, _, judge_eq_ok_iff.mpr ⟨hr, rfl⟩, ih.mpr ⟨hrs, rfl⟩, rfl⟩

/-- A comparison can be evaluated iff its field resolves, its operand makes a
predicate that can be looked for, and the records hold values of its type; it then
selects the places of the verdicts that are true. -/
theorem select_eq_ok_iff {c : Comparison} {d : Dataset} {found : Positions} :
    c.select d = .ok found ↔ ∃ field p, d.resolve c.field = .ok field ∧
      c.predicate = .ok p ∧ p.checkSize = .ok () ∧ Uniform p.operator field d.records ∧
      found = .ofFlags (d.records.map (verdict p field)) := by
  rw [select, bind_eq_ok_iff]
  constructor
  · rintro ⟨⟨field, p⟩, hprepare, h⟩
    obtain ⟨flags, hflags, h⟩ := bind_eq_ok_iff.mp h
    obtain ⟨hfield, hp, hsize⟩ := prepare_eq_ok_iff.mp hprepare
    obtain ⟨huniform, rfl⟩ := judgeAll_eq_ok_iff.mp hflags
    cases h
    exact ⟨field, p, hfield, hp, hsize, huniform, rfl⟩
  · rintro ⟨field, p, hfield, hp, hsize, huniform, rfl⟩
    exact ⟨(field, p), prepare_eq_ok_iff.mpr ⟨hfield, hp, hsize⟩,
      bind_eq_ok_iff.mpr ⟨_, judgeAll_eq_ok_iff.mpr ⟨huniform, rfl⟩, rfl⟩⟩

/-- The verdict on a record is whether the comparison wants it. -/
theorem verdict_eq_true_iff [LawfulSearcher] {c : Comparison} {d : Dataset} {field : String}
    {p : Predicate} (hfield : d.resolve c.field = .ok field) (hp : c.predicate = .ok p)
    (hsize : p.checkSize = .ok ()) (r : Record) :
    verdict p field r = true ↔ c.Wants d r := by
  unfold verdict Wants
  constructor
  · intro h
    cases hv : r.get? field with
    | none => simp [hv] at h
    | some v =>
      have htest : p.test v = some true := by
        cases ht : p.test v <;> simp_all
      exact ⟨field, v, hfield, hv, (test_eq_true_iff hp hsize).mp htest⟩
  · rintro ⟨field', v, hfield', hv, haccepts⟩
    cases hfield.symm.trans hfield'
    simp [hv, (test_eq_true_iff hp hsize).mpr haccepts]

theorem mem_select [LawfulSearcher] {c : Comparison} {d : Dataset} {found : Positions}
    (h : c.select d = .ok found) {i : Nat} {r : Record} (hr : d.records[i]? = some r) :
    i ∈ found ↔ c.Wants d r := by
  obtain ⟨field, p, hfield, hp, hsize, -, rfl⟩ := select_eq_ok_iff.mp h
  rw [Positions.mem_ofFlags, List.getElem?_map, hr, Option.map_some, Option.some.injEq,
    verdict_eq_true_iff hfield hp hsize]

theorem lt_size_of_mem_select {c : Comparison} {d : Dataset} {found : Positions}
    (h : c.select d = .ok found) {i : Nat} (hi : i ∈ found) : i < d.size := by
  obtain ⟨field, p, -, -, -, -, rfl⟩ := select_eq_ok_iff.mp h
  have hflag := Positions.mem_ofFlags.mp hi
  simpa [Dataset.size] using (List.getElem?_eq_some_iff.mp hflag).1

end Comparison

/-! ## Filters -/

namespace Filter

theorem selectRest_eq_mapM (d : Dataset) (connective : Connective) (found : Positions)
    (fs : List Filter) : selectRest d connective found fs =
      fs.mapM (select d) >>= fun sets => .ok (sets.foldl connective.combine found) := by
  induction fs generalizing found with
  | nil => rfl
  | cons f fs ih =>
    rw [selectRest, mapM_cons_except]
    cases hf : f.select d with
    | error e => rfl
    | ok more =>
      show selectRest d connective (connective.combine found more) fs = _
      rw [ih]
      cases fs.mapM (select d) with
      | error e => rfl
      | ok sets => rfl

/-- A list of filters: all of them are evaluated, and the connective combines
their sets from the first one on. -/
theorem select_logical (d : Dataset) (connective : Connective) (f : Filter)
    (fs : List Filter) : select d (.logical connective (f :: fs)) =
      select d f >>= fun found => fs.mapM (select d) >>= fun sets =>
        .ok (sets.foldl connective.combine found) := by
  rw [select]
  cases f.select d with
  | error e => rfl
  | ok found => exact selectRest_eq_mapM d connective found fs

theorem select_logical_eq_ok_iff {d : Dataset} {connective : Connective} {f : Filter}
    {fs : List Filter} {found : Positions} :
    select d (.logical connective (f :: fs)) = .ok found ↔ ∃ s sets, f.select d = .ok s ∧
      List.Forall₂ (fun g t => g.select d = .ok t) fs sets ∧
      found = sets.foldl connective.combine s := by
  rw [select_logical, bind_eq_ok_iff]
  constructor
  · rintro ⟨s, hs, h⟩
    obtain ⟨sets, hsets, h⟩ := bind_eq_ok_iff.mp h
    cases h
    exact ⟨s, sets, hs, mapM_eq_ok_iff.mp hsets, rfl⟩
  · rintro ⟨s, sets, hs, hsets, rfl⟩
    exact ⟨s, hs, bind_eq_ok_iff.mpr ⟨sets, mapM_eq_ok_iff.mpr hsets, rfl⟩⟩

theorem select_logical_nil_ne_ok {d : Dataset} {connective : Connective}
    {found : Positions} : select d (.logical connective []) ≠ .ok found := by
  rw [select]
  simp

theorem select_negation_eq_ok_iff {d : Dataset} {f : Filter} {found : Positions} :
    select d (.negation f) = .ok found ↔
      ∃ s, f.select d = .ok s ∧ found = (Positions.below d.size).diff s := by
  rw [select, bind_eq_ok_iff]
  constructor
  · rintro ⟨s, hs, h⟩
    cases h
    exact ⟨s, hs, rfl⟩
  · rintro ⟨s, hs, rfl⟩
    exact ⟨s, hs, rfl⟩

/-- A filter selects positions of records only. -/
theorem lt_size_of_mem_select {d : Dataset} {f : Filter} {found : Positions}
    (h : f.select d = .ok found) {i : Nat} (hi : i ∈ found) : i < d.size := by
  induction f generalizing found with
  | everything =>
    rw [select] at h
    cases h
    exact Positions.mem_below.mp hi
  | logical connective fs ih =>
    cases fs with
    | nil => exact absurd h select_logical_nil_ne_ok
    | cons f fs =>
      obtain ⟨s, sets, hs, hsets, rfl⟩ := select_logical_eq_ok_iff.mp h
      -- What is in the combined set is in the set of an operand, the first or a later one.
      obtain ⟨t, ht, hit⟩ := mem_of_mem_foldl_combine hi
      have hall : List.Forall₂ (fun g t => g.select d = .ok t) (f :: fs) (s :: sets) :=
        .cons hs hsets
      obtain ⟨g, hg, hgt⟩ := exists_of_mem_forall₂ hall ht
      exact ih g hg hgt hit
  | negation f =>
    obtain ⟨s, -, rfl⟩ := select_negation_eq_ok_iff.mp h
    exact Positions.mem_below.mp (Positions.mem_diff.mp hi).1
  | comparison c =>
    rw [select] at h
    exact Comparison.lt_size_of_mem_select h hi

/-- At a position of the dataset a filter that can be evaluated is a formula: it selects the
position iff it holds there, given which comparisons select it. -/
theorem mem_select_iff_holds {d : Dataset} {holds : Comparison → Prop} {i : Nat}
    (hi : i < d.size) (hleaf : ∀ c s, c.select d = .ok s → (i ∈ s ↔ holds c)) {f : Filter}
    {found : Positions} (h : f.select d = .ok found) : i ∈ found ↔ f.Holds holds := by
  induction f generalizing found with
  | everything =>
    rw [select] at h
    cases h
    simp [Holds, Positions.mem_below, hi]
  | logical connective fs ih =>
    cases fs with
    | nil => exact absurd h select_logical_nil_ne_ok
    | cons f fs =>
      obtain ⟨s, sets, hs, hsets, rfl⟩ := select_logical_eq_ok_iff.mp h
      -- The fold begins with the set of the first operand; the others stand beside their sets.
      have hfirst : i ∈ s ↔ f.Holds holds := ih f List.mem_cons_self hs
      have hothers : ∀ g ∈ fs, ∀ t, g.select d = .ok t → (i ∈ t ↔ g.Holds holds) :=
        fun g hg t ht => ih g (List.mem_cons_of_mem _ hg) ht
      cases connective with
      | all =>
        show i ∈ sets.foldl Positions.inter s ↔ _
        rw [mem_foldl_inter, hfirst, forall_mem_iff_of_forall₂ hsets hothers, holds_all_iff,
          List.forall_mem_cons]
      | any =>
        show i ∈ sets.foldl Positions.union s ↔ _
        rw [mem_foldl_union, hfirst, exists_mem_iff_of_forall₂ hsets hothers, holds_any_iff,
          List.exists_mem_cons_iff]
  | negation f ih =>
    -- The difference is taken from the positions of all records, of which `i` is one.
    obtain ⟨s, hs, rfl⟩ := select_negation_eq_ok_iff.mp h
    have hoperand : i ∈ s ↔ f.Holds holds := ih hs
    rw [Positions.mem_diff, Positions.mem_below, hoperand]
    simp [Holds, hi]
  | comparison c =>
    rw [select] at h
    exact hleaf c found h

/-- At the position of a record, a filter selects iff it wants the record. -/
theorem mem_select [LawfulSearcher] {d : Dataset} {f : Filter} {found : Positions}
    (h : f.select d = .ok found) {i : Nat} {r : Record} (hr : d.records[i]? = some r) :
    i ∈ found ↔ f.Wants d r := by
  have hi : i < d.size := (List.getElem?_eq_some_iff.mp hr).1
  rw [wants_iff_holds]
  exact mem_select_iff_holds hi (fun _ _ hs => Comparison.mem_select hs hr) h

/-- **Sets of positions and single records agree.** A filter that can be evaluated
selects the positions of the records that it wants, and no others. -/
theorem select_eq_wanted [LawfulSearcher] {d : Dataset} {f : Filter} {found : Positions}
    (h : f.select d = .ok found) (i : Nat) :
    i ∈ found ↔ ∃ hi : i < d.size, f.Wants d (d.records.get ⟨i, hi⟩) := by
  constructor
  · intro hmem
    have hi := lt_size_of_mem_select h hmem
    exact ⟨hi, (mem_select h (List.getElem?_eq_getElem hi)).mp hmem⟩
  · rintro ⟨hi, hwants⟩
    exact (mem_select h (List.getElem?_eq_getElem hi)).mpr hwants

end Filter

end Searching

/-- Rooms of which one has no name and one no seats. -/
def sampleRooms : Dataset := ⟨"rooms", .rooms,
  [.ofList [("name", .text "DMP110"), ("seats", .number (.ofInt 40))],
    .ofList [("name", .text "DMP310"), ("shape", .text "tiered")],
    .ofList [("seats", .number (.ofInt 160))]]⟩

/-- Not both a name without 31 and fewer than a hundred seats. -/
def sampleFilter : Filter := .negation (.logical .all
  [.negation (.comparison ⟨"rooms_name", .is, .string "*31*"⟩),
    .comparison ⟨"rooms_seats", .lt, .number (.integer 100)⟩])

/-- Below the negation the records that lack a field are selected, and no position
behind the last record is. -/
theorem sampleFilter_selects :
    sampleFilter.select sampleRooms = .ok (.ofList [1, 2]) ∧
      ∀ i, i ∈ Positions.ofList [1, 2] ↔ ∃ hi : i < sampleRooms.size,
        sampleFilter.Wants sampleRooms (sampleRooms.records.get ⟨i, hi⟩) := by
  have hselect : sampleFilter.select sampleRooms = .ok (.ofList [1, 2]) := by decide +kernel
  exact ⟨hselect, Filter.select_eq_wanted hselect⟩

end Tabular
