import Tabular.Proofs.Answer
import Tabular.Proofs.Faults
import Tabular.Proofs.Operations
import Tabular.Proofs.Reachable

/-!
# Which error comes first

A query can be wrong in several ways at once. What it needs is asked for in one
order: its shape, the dataset, the comparisons from left to right, the columns in
turn, the keys of the options, the order, the number of rows; and what is missing
first is the error. `Query.AppliesTo` lists the needs, `Query.FailsIn` and
`Catalog.Refuses` the errors, each under the condition that all before it are met.
`Catalog.query_outcome` is that a query is answered iff all needs are met, and else
refused with the first that is not. It is about the JSON values there are: objects keep
their keys ascending, and what is read from a text has such objects only.
-/

namespace Tabular

/-- Among ascending keys the smallest is the first. -/
theorem head?_eq_some_iff_smallest {keys : List String} (hasc : keys.Pairwise Text.Before)
    {key : String} : keys.head? = some key ↔ key ∈ keys ∧ ∀ k ∈ keys, ¬ Text.Before k key := by
  cases keys with
  | nil => simp
  | cons k keys =>
    obtain ⟨hk, -⟩ := List.pairwise_cons.mp hasc
    rw [List.head?_cons, Option.some.injEq]
    constructor
    · rintro rfl
      refine ⟨List.mem_cons_self, List.forall_mem_cons.mpr ⟨Text.not_before_self k, ?_⟩⟩
      intro k' hk'
      exact (hk k' hk').asymm
    · rintro ⟨hmem, hsmallest⟩
      rcases List.mem_cons.mp hmem with rfl | hin
      · rfl
      · exact absurd (hk key hin) (hsmallest k List.mem_cons_self)

section Searching

variable [Searcher]

/-! ## One dataset -/

/-- What a query needs of a dataset: that its comparisons apply and its columns
resolve, that the options have no further key and the order is among the columns, and
that not too many records are wanted. -/
structure Query.AppliesTo (q : Query) (d : Dataset) : Prop where
  comparisons : ∀ c ∈ q.filter.comparisons, c.AppliesTo d
  columns : ∀ name ∈ q.options.columns, ∃ field, d.resolve name = .ok field
  further : q.options.extraKeys = []
  order : ∀ order, q.options.order = some order → order ∈ q.options.columns
  rows : (q.filter.wanted d).length ≤ mostRows

/-- What a query fails with in a dataset: the first need that is not met. -/
inductive Query.FailsIn (q : Query) (d : Dataset) : Error → Prop
  /-- Of the comparisons the first that fails, from left to right. -/
  | comparison {front back : List Comparison} {c : Comparison} {e : Error}
      (hq : q.filter.comparisons = front ++ c :: back) (hfront : ∀ c' ∈ front, c'.AppliesTo d)
      (h : c.FailsIn d e) : FailsIn q d e
  /-- Of the columns the first that does not resolve. -/
  | column {front back : List String} {name : String} {e : Error}
      (hcomparisons : ∀ c ∈ q.filter.comparisons, c.AppliesTo d)
      (hq : q.options.columns = front ++ name :: back)
      (hfront : ∀ n ∈ front, ∃ field, d.resolve n = .ok field) (h : d.resolve name = .error e)
      (he : e = .foreignField name d.id ∨ e = .unknownField name d.id) : FailsIn q d e
  /-- Of the further keys the smallest. -/
  | further {key : String} (hcomparisons : ∀ c ∈ q.filter.comparisons, c.AppliesTo d)
      (hcolumns : ∀ name ∈ q.options.columns, ∃ field, d.resolve name = .ok field)
      (hkey : key ∈ q.options.extraKeys) (h : ∀ k ∈ q.options.extraKeys, ¬ Text.Before k key) :
      FailsIn q d (.shape (.extraKey key))
  | order {order : String} (hcomparisons : ∀ c ∈ q.filter.comparisons, c.AppliesTo d)
      (hcolumns : ∀ name ∈ q.options.columns, ∃ field, d.resolve name = .ok field)
      (hfurther : q.options.extraKeys = []) (horder : q.options.order = some order)
      (h : order ∉ q.options.columns) : FailsIn q d (.shape (.orderNotShown order))
  | tooMany (hcomparisons : ∀ c ∈ q.filter.comparisons, c.AppliesTo d)
      (hcolumns : ∀ name ∈ q.options.columns, ∃ field, d.resolve name = .ok field)
      (hfurther : q.options.extraKeys = [])
      (horder : ∀ order, q.options.order = some order → order ∈ q.options.columns)
      (h : mostRows < (q.filter.wanted d).length) :
      FailsIn q d (.tooManyRows (q.filter.wanted d).length mostRows)

namespace Query

variable [LawfulSearcher] {q : Query} {d : Dataset}

/-- A query of the grammar is answered iff its needs are met. -/
theorem exists_run_iff (hq : q.WellFormed) :
    (∃ rows, q.run d = .ok rows) ↔ q.AppliesTo d := by
  constructor
  · rintro ⟨rows, h⟩
    obtain ⟨found, columns, hfound, hcolumns, hcheck, hsize, -⟩ := run_eq_ok_iff.mp h
    obtain ⟨hfurther, horder⟩ := Options.check_eq_ok_iff.mp hcheck
    rw [Filter.size_select hfound] at hsize
    exact ⟨(Filter.exists_select_iff hq.filter).mp ⟨found, hfound⟩,
      (Dataset.columns_eq_ok_iff.mp hcolumns).1, hfurther, horder, hsize⟩
  · intro h
    obtain ⟨found, hfound⟩ := (Filter.exists_select_iff hq.filter).mpr h.comparisons
    have hsize := h.rows
    rw [← Filter.size_select hfound] at hsize
    exact ⟨_, run_eq_ok_iff.mpr ⟨found, _, hfound,
      Dataset.columns_eq_ok_iff.mpr ⟨h.columns, rfl⟩,
      Options.check_eq_ok_iff.mpr ⟨h.further, h.order⟩, hsize, rfl⟩⟩

/-- An error is that of the first need that is not met. -/
theorem failsIn_of_run (hq : q.WellFormed) {e : Error} (h : q.run d = .error e) :
    q.FailsIn d e := by
  rcases run_eq_error_iff.mp h with hselect | ⟨found, hfound, h⟩
  · obtain ⟨front, c, back, hsplit, hfront, hc⟩ :=
      (Filter.select_eq_error_iff hq.filter).mp hselect
    exact .comparison hsplit hfront hc
  have hcomparisons := (Filter.exists_select_iff hq.filter).mp ⟨found, hfound⟩
  rcases h with hcolumns | ⟨columns, hcolumns, h⟩
  · obtain ⟨front, name, back, hsplit, hfront, hname⟩ :=
      Dataset.columns_eq_error_iff.mp hcolumns
    exact .column hcomparisons hsplit hfront hname (Dataset.resolve_error_cases hname)
  have hnames := (Dataset.columns_eq_ok_iff.mp hcolumns).1
  rcases h with ⟨fault, hfault, rfl⟩ | ⟨hcheck, hsize, rfl⟩
  · rcases Options.check_eq_error_iff.mp hfault with
      ⟨key, hkey, rfl⟩ | ⟨hnil, order, horder, hmem, rfl⟩
    · obtain ⟨hin, hsmallest⟩ := (head?_eq_some_iff_smallest hq.options.ascending).mp hkey
      exact .further hcomparisons hnames hin hsmallest
    · exact .order hcomparisons hnames hnil horder hmem
  · obtain ⟨hfurther, horder⟩ := Options.check_eq_ok_iff.mp hcheck
    rw [Filter.size_select hfound] at hsize ⊢
    exact .tooMany hcomparisons hnames hfurther horder hsize

/-- A query fails with the first need that is not met. -/
theorem run_of_failsIn (hq : q.WellFormed) {e : Error} (h : q.FailsIn d e) :
    q.run d = .error e := by
  rw [run_eq_error_iff]
  -- All that comes before the failing step succeeds.
  have hselected : (∀ c ∈ q.filter.comparisons, c.AppliesTo d) →
      ∃ found, q.filter.select d = .ok found := (Filter.exists_select_iff hq.filter).mpr
  cases h with
  | comparison hsplit hfront hc =>
    exact .inl ((Filter.select_eq_error_iff hq.filter).mpr ⟨_, _, _, hsplit, hfront, hc⟩)
  | column hcomparisons hsplit hfront hname _ =>
    obtain ⟨found, hfound⟩ := hselected hcomparisons
    refine .inr ⟨found, hfound, .inl ?_⟩
    exact Dataset.columns_eq_error_iff.mpr ⟨_, _, _, hsplit, hfront, hname⟩
  | further hcomparisons hnames hin hsmallest =>
    obtain ⟨found, hfound⟩ := hselected hcomparisons
    have hhead := (head?_eq_some_iff_smallest hq.options.ascending).mpr ⟨hin, hsmallest⟩
    have hfault := Options.check_eq_error_iff.mpr (.inl ⟨_, hhead, rfl⟩)
    have hcolumns := Dataset.columns_eq_ok_iff.mpr ⟨hnames, rfl⟩
    exact .inr ⟨found, hfound, .inr ⟨_, hcolumns, .inl ⟨_, hfault, rfl⟩⟩⟩
  | order hcomparisons hnames hfurther horder hmem =>
    obtain ⟨found, hfound⟩ := hselected hcomparisons
    have hfault := Options.check_eq_error_iff.mpr (.inr ⟨hfurther, _, horder, hmem, rfl⟩)
    have hcolumns := Dataset.columns_eq_ok_iff.mpr ⟨hnames, rfl⟩
    exact .inr ⟨found, hfound, .inr ⟨_, hcolumns, .inl ⟨_, hfault, rfl⟩⟩⟩
  | tooMany hcomparisons hnames hfurther horder hsize =>
    obtain ⟨found, hfound⟩ := hselected hcomparisons
    have hcheck := Options.check_eq_ok_iff.mpr ⟨hfurther, horder⟩
    have hcolumns := Dataset.columns_eq_ok_iff.mpr ⟨hnames, rfl⟩
    rw [← Filter.size_select hfound] at hsize ⊢
    exact .inr ⟨found, hfound, .inr ⟨_, hcolumns, .inr ⟨hcheck, hsize, rfl⟩⟩⟩

end Query

/-! ## The catalog -/

/-- What a catalog refuses a JSON value with: the first of these that is the case. -/
inductive Catalog.Refuses (c : Catalog) (v : Json) : Error → Prop
  /-- The value is no query; the fault of shape is the one that reading reports. -/
  | shape {fault : ShapeFault} (hnone : ∀ q : Query, ¬ q.WrittenAs v)
      (h : Query.ofJson v = .error fault) : Refuses c v (.shape fault)
  /-- No dataset with the id in front of the first column's underscore is loaded. -/
  | notFound {q : Query} (hq : q.WrittenAs v) (h : ∀ d, c.Loads d → d.id ≠ q.datasetId) :
      Refuses c v (.notFound q.datasetId)
  | run {q : Query} {d : Dataset} {e : Error} (hq : q.WrittenAs v) (hd : c.Loads d)
      (hid : d.id = q.datasetId) (h : q.FailsIn d e) : Refuses c v e

namespace Catalog

variable {c : Catalog} {v : Json}

theorem query_eq_ok_iff {rows : List Row} :
    c.query v = .ok rows ↔ ∃ q d, Query.ofJson v = .ok q ∧ c.get? q.datasetId = some d ∧
      Query.run q d = .ok rows := by
  rw [query, bind_eq_ok_iff]
  constructor
  · rintro ⟨q, hq, h⟩
    obtain ⟨d, hd, h⟩ := bind_eq_ok_iff.mp h
    exact ⟨q, d, mapError_eq_ok_iff.mp hq, get_eq_ok_iff.mp hd, h⟩
  · rintro ⟨q, d, hq, hd, h⟩
    exact ⟨q, mapError_eq_ok_iff.mpr hq, bind_eq_ok_iff.mpr ⟨d, get_eq_ok_iff.mpr hd, h⟩⟩

theorem query_eq_error_iff {e : Error} :
    c.query v = .error e ↔ (∃ fault, Query.ofJson v = .error fault ∧ .shape fault = e) ∨
      ∃ q, Query.ofJson v = .ok q ∧ (c.get? q.datasetId = none ∧ e = .notFound q.datasetId ∨
        ∃ d, c.get? q.datasetId = some d ∧ Query.run q d = .error e) := by
  rw [query, bind_eq_error_iff, mapError_eq_error_iff]
  simp only [mapError_eq_ok_iff, execute, bind_eq_error_iff, get_eq_error_iff, get_eq_ok_iff]

section Reachable

variable [LawfulSearcher] (hc : c.Reachable) (hv : v.Ordered)
include hc hv

/-- A value is answered iff it writes a query that applies to a loaded dataset. -/
theorem exists_query_iff : (∃ rows, c.query v = .ok rows) ↔
    ∃ q d, q.WrittenAs v ∧ c.Loads d ∧ d.id = q.datasetId ∧ Query.AppliesTo q d := by
  have hkeyed := hc.keyed
  constructor
  · rintro ⟨rows, h⟩
    obtain ⟨q, d, hread, hget, hrun⟩ := query_eq_ok_iff.mp h
    have hq := (Query.writtenAs_iff hv).mpr hread
    obtain ⟨hd, hid⟩ := hkeyed.get?_eq_some_iff.mp hget
    exact ⟨q, d, hq, hd, hid, (Query.exists_run_iff hq.1).mp ⟨rows, hrun⟩⟩
  · rintro ⟨q, d, hq, hd, hid, happlies⟩
    obtain ⟨rows, hrun⟩ := (Query.exists_run_iff hq.1).mpr happlies
    exact ⟨rows, query_eq_ok_iff.mpr ⟨q, d, (Query.writtenAs_iff hv).mp hq,
      hkeyed.get?_eq_some_iff.mpr ⟨hd, hid⟩, hrun⟩⟩

theorem refuses_of_query {e : Error} (h : c.query v = .error e) : c.Refuses v e := by
  have hkeyed := hc.keyed
  rcases query_eq_error_iff.mp h with ⟨fault, hfault, rfl⟩ | ⟨q, hread, h⟩
  · -- A value that writes a query would have been read.
    refine .shape ?_ hfault
    intro q hq
    rw [(Query.writtenAs_iff hv).mp hq] at hfault
    cases hfault
  have hq := (Query.writtenAs_iff hv).mpr hread
  rcases h with ⟨hnone, rfl⟩ | ⟨d, hget, hrun⟩
  · refine .notFound hq ?_
    intro d hd hid
    rw [hkeyed.get?_eq_some_iff.mpr ⟨hd, hid⟩] at hnone
    cases hnone
  · obtain ⟨hd, hid⟩ := hkeyed.get?_eq_some_iff.mp hget
    exact .run hq hd hid (Query.failsIn_of_run hq.1 hrun)

theorem query_of_refuses {e : Error} (h : c.Refuses v e) : c.query v = .error e := by
  have hkeyed := hc.keyed
  rw [query_eq_error_iff]
  cases h with
  | shape _ hfault => exact .inl ⟨_, hfault, rfl⟩
  | @notFound q hq h =>
    refine .inr ⟨q, (Query.writtenAs_iff hv).mp hq, .inl ⟨?_, rfl⟩⟩
    cases hget : c.get? q.datasetId with
    | none => rfl
    | some d =>
      obtain ⟨hd, hid⟩ := hkeyed.get?_eq_some_iff.mp hget
      exact absurd hid (h d hd)
  | @run q d _ hq hd hid h =>
    refine .inr ⟨q, (Query.writtenAs_iff hv).mp hq, .inr ⟨d, ?_, ?_⟩⟩
    · exact hkeyed.get?_eq_some_iff.mpr ⟨hd, hid⟩
    · exact Query.run_of_failsIn hq.1 h

end Reachable

/-- **The order of the errors.** In every reachable catalog a JSON value is answered
iff it writes a query of the grammar, a dataset with the query's id is loaded and
the query applies to it. Else the error is that of the first need that is not met;
a fault of shape has the message with which it was read. -/
theorem query_outcome [LawfulSearcher] (hc : c.Reachable) (hv : v.Ordered) :
    ((∃ rows, c.query v = .ok rows) ↔ ∃ q d, q.WrittenAs v ∧ c.Loads d ∧ d.id = q.datasetId ∧
      Query.AppliesTo q d) ∧
    (∀ e, c.query v = .error e ↔ c.Refuses v e) ∧
    ∀ fault, (Error.shape fault).message = (QueryFault.shape fault).message := by
  refine ⟨exists_query_iff hc hv, ?_, fun fault => rfl⟩
  intro e
  exact ⟨refuses_of_query hc hv, query_of_refuses hc hv⟩

end Catalog

end Searching

/-- In a catalog with the rooms, an ill-typed operand comes before a further key and
an order that is not shown. -/
theorem limitedJson_refused :
    let c := Catalog.empty.after (.add "rooms" .rooms sampleRooms.records)
    c.Reachable ∧ limitedJson.Ordered ∧
      c.query limitedJson = .error (.type (.operand .gt "rooms_seats" "\"many\"")) ∧
      c.Refuses limitedJson (.type (.operand .gt "rooms_seats" "\"many\"")) ∧
      ¬ ∃ q d, q.WrittenAs limitedJson ∧ c.Loads d ∧ d.id = q.datasetId ∧
        Query.AppliesTo q d := by
  intro c
  have hc : c.Reachable := .after .empty _
  have herror : c.query limitedJson =
      .error (.type (.operand .gt "rooms_seats" "\"many\"")) := by decide +kernel
  obtain ⟨hok, hrefuses, -⟩ := Catalog.query_outcome hc ordered_limitedJson
  refine ⟨hc, ordered_limitedJson, herror, (hrefuses _).mp herror, ?_⟩
  rw [← hok, herror]
  rintro ⟨rows, hrows⟩
  cases hrows

end Tabular
