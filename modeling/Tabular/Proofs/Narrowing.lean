import Tabular.Proofs.Answer
import Tabular.Proofs.Faults
import Tabular.Proofs.Operations

/-!
# Asking for less

A query is narrowed by a further filter that the records have to pass too. Of the errors
of queries only too many rows can be cured so, and it always can: an error is retryable
iff some narrower query is answered (`Catalog.retryable_iff_narrowable`).

The options decide this, for they are checked behind the filter and without looking at
what it selects. Either they are refused, with one error whatever is selected, or only
the number of selected positions matters (`Options.refused_or_accepted`).
-/

namespace Tabular

/-- The query that asks less: of the records that are wanted, those that `g` wants too. -/
def Query.narrowedBy (q : Query) (g : Filter) : Query :=
  ⟨.logical .all [q.filter, g], q.options⟩

/-! ## Fewer positions and rows -/

theorem Positions.size_inter_le (s t : Positions) : (s.inter t).size ≤ s.size :=
  (interList_sublist s.toList t.toList).length_le

theorem Positions.size_eq_zero {s : Positions} (h : ∀ i, i ∉ s) : s.size = 0 :=
  List.length_eq_zero_iff.mpr (List.eq_nil_iff_forall_not_mem.mpr h)

theorem Positions.size_below (n : Nat) : (below n).size = n :=
  List.length_range

theorem Dataset.length_rows_le (d : Dataset) (columns : List Column) (found : Positions) :
    (d.rows columns found).length ≤ found.size :=
  List.length_filterMap_le _ _

theorem Row.length_sortBy (order : String) (rows : List Row) :
    (sortBy order rows).length = rows.length :=
  List.length_mergeSort rows

section Searching

variable [Searcher]

theorem Query.length_le_of_run {q : Query} {d : Dataset} {rows : List Row}
    (h : q.run d = .ok rows) : rows.length ≤ mostRows := by
  obtain ⟨found, columns, -, -, -, hsize, rfl⟩ := run_eq_ok_iff.mp h
  have hrows := Nat.le_trans (d.length_rows_le columns found) hsize
  cases q.options.order with
  | none => exact hrows
  | some order => exact Nat.le_trans (Nat.le_of_eq (Row.length_sortBy order _)) hrows

/-! ## Options in a dataset -/

/-- A query with these options fails with one error, whatever it selects. -/
def Options.RefusedIn (o : Options) (d : Dataset) (e : Error) : Prop :=
  ∀ f found, Filter.select d f = .ok found → Query.run ⟨f, o⟩ d = .error e

/-- A query with these options is answered, unless it selects too much. -/
structure Options.AcceptedIn (o : Options) (d : Dataset) : Prop where
  answered : ∀ f found, Filter.select d f = .ok found → found.size ≤ mostRows →
    ∃ rows, Query.run ⟨f, o⟩ d = .ok rows
  tooMany : ∀ f found, Filter.select d f = .ok found → mostRows < found.size →
    Query.run ⟨f, o⟩ d = .error (.tooManyRows found.size mostRows)

theorem Options.refused_or_accepted (o : Options) (d : Dataset) :
    (∃ e : Error, e.Plain ∧ o.RefusedIn d e) ∨ o.AcceptedIn d := by
  cases hcolumns : d.columns o.columns with
  | error e =>
    refine .inl ⟨e, Dataset.plain_of_columns hcolumns, ?_⟩
    intro f found hfound
    exact Query.run_eq_error_iff.mpr (.inr ⟨found, hfound, .inl hcolumns⟩)
  | ok columns =>
    cases hcheck : o.check with
    | error fault =>
      refine .inl ⟨.ofQueryFault fault, Error.plain_ofQueryFault fault, ?_⟩
      intro f found hfound
      exact Query.run_eq_error_iff.mpr
        (.inr ⟨found, hfound, .inr ⟨columns, hcolumns, .inl ⟨fault, hcheck, rfl⟩⟩⟩)
    | ok =>
      refine .inr ⟨?_, ?_⟩
      · intro f found hfound hsize
        exact ⟨_, Query.run_eq_ok_iff.mpr ⟨found, columns, hfound, hcolumns, hcheck, hsize, rfl⟩⟩
      · intro f found hfound hsize
        exact Query.run_eq_error_iff.mpr
          (.inr ⟨found, hfound, .inr ⟨columns, hcolumns, .inr ⟨hcheck, hsize, rfl⟩⟩⟩)

/-! ## Both of two filters -/

namespace Filter

variable {d : Dataset} {f g : Filter}

theorem select_everything (d : Dataset) : select d .everything = .ok (.below d.size) :=
  rfl

theorem select_both {s t : Positions} (hs : f.select d = .ok s) (ht : g.select d = .ok t) :
    select d (.logical .all [f, g]) = .ok (s.inter t) :=
  select_logical_eq_ok_iff.mpr ⟨s, [t], hs, .cons ht .nil, rfl⟩

theorem select_both_of_error_left {e : Error} (h : f.select d = .error e) :
    select d (.logical .all [f, g]) = .error e := by
  rw [select_logical, h]
  rfl

theorem select_both_of_error_right {s : Positions} {e : Error} (hs : f.select d = .ok s)
    (h : g.select d = .error e) : select d (.logical .all [f, g]) = .error e := by
  rw [select_logical, hs, mapM_cons_except, h]
  rfl

/-- Every record and none at once: nothing is selected. -/
theorem exists_select_none (hs : ∃ s, f.select d = .ok s) :
    ∃ found, select d (.logical .all [f, .negation .everything]) = .ok found ∧
      found.size = 0 := by
  obtain ⟨s, hs⟩ := hs
  have hnone : select d (.negation .everything) =
      .ok ((Positions.below d.size).diff (.below d.size)) := rfl
  refine ⟨_, select_both hs hnone, Positions.size_eq_zero ?_⟩
  intro i hi
  obtain ⟨hin, hout⟩ := Positions.mem_diff.mp (Positions.mem_inter.mp hi).2
  exact hout hin

end Filter

/-! ## Narrower queries -/

namespace Query

variable {q : Query} {d : Dataset} {e : Error}

/-- Asking for every record fails when they are more than an answer may have rows. -/
theorem run_everything_of_lt {names : List String} {columns : List Column}
    (hcolumns : d.columns names = .ok columns) (hsize : mostRows < d.size) :
    Query.run ⟨.everything, ⟨names, none, []⟩⟩ d = .error (.tooManyRows d.size mostRows) := by
  have hfound : (Positions.below d.size).size = d.size := Positions.size_below _
  refine run_eq_error_iff.mpr (.inr ⟨_, Filter.select_everything d, .inr ⟨columns, hcolumns, ?_⟩⟩)
  rw [hfound]
  exact .inr ⟨rfl, hsize, rfl⟩

/-- A query fails because of what it is, and then every narrower one fails and those that
can be evaluated fail alike; or because it selects too much. -/
theorem run_error_cases (h : q.run d = .error e) :
    (e.Plain ∧ ∀ g, (∃ e', (q.narrowedBy g).run d = .error e') ∧
      ((∃ found, g.select d = .ok found) → (q.narrowedBy g).run d = .error e)) ∨
    ∃ found, q.filter.select d = .ok found ∧ q.options.AcceptedIn d ∧
      e = .tooManyRows found.size mostRows := by
  cases hselect : q.filter.select d with
  | error e' =>
    have hrun : ∀ f, Filter.select d f = .error e' → Query.run ⟨f, q.options⟩ d = .error e' :=
      fun _ hf => run_eq_error_iff.mpr (.inl hf)
    obtain rfl : e' = e := Except.error.inj ((hrun _ hselect).symm.trans h)
    refine .inl ⟨Filter.plain_of_select hselect, ?_⟩
    intro g
    have hnarrow := hrun _ (Filter.select_both_of_error_left (g := g) hselect)
    exact ⟨⟨e', hnarrow⟩, fun _ => hnarrow⟩
  | ok s =>
    rcases q.options.refused_or_accepted d with ⟨e', hplain, hrefused⟩ | haccepted
    · obtain rfl : e' = e := Except.error.inj ((hrefused _ _ hselect).symm.trans h)
      refine .inl ⟨hplain, ?_⟩
      intro g
      cases hg : g.select d with
      | error e'' =>
        have hboth := Filter.select_both_of_error_right hselect hg
        refine ⟨⟨e'', run_eq_error_iff.mpr (.inl hboth)⟩, ?_⟩
        intro hfound
        obtain ⟨found, hfound⟩ := hfound
        cases hfound
      | ok t =>
        have hnarrow := hrefused _ _ (Filter.select_both hselect hg)
        exact ⟨⟨e', hnarrow⟩, fun _ => hnarrow⟩
    · refine .inr ⟨s, rfl, haccepted, ?_⟩
      by_cases hsize : s.size ≤ mostRows
      · obtain ⟨rows, hrows⟩ := haccepted.answered _ _ hselect hsize
        cases hrows.symm.trans h
      · have hmany := haccepted.tooMany _ _ hselect (Nat.lt_of_not_le hsize)
        exact Except.error.inj (h.symm.trans hmany)

end Query

namespace Catalog

/-- A filter can be evaluated in the dataset that a query is for, if that is loaded. -/
def Evaluates (c : Catalog) (q : Query) (g : Filter) : Prop :=
  ∀ d, c.get? q.datasetId = some d → ∃ found, g.select d = .ok found

variable {c : Catalog} {q : Query} {e : Error}

theorem execute_of_loaded {d : Dataset} (hd : c.get? q.datasetId = some d) :
    c.execute q = q.run d := by
  rw [execute, get_eq_ok_iff.mpr hd]
  rfl

theorem execute_of_absent (h : c.get? q.datasetId = none) :
    c.execute q = .error (.notFound q.datasetId) := by
  rw [execute, get_eq_error_iff.mpr ⟨h, rfl⟩]
  rfl

/-- A dataset that is not loaded is missed by every narrower query. -/
theorem execute_error_cases (h : c.execute q = .error e) :
    (e.Plain ∧ ∀ g, (∃ e', c.execute (q.narrowedBy g) = .error e') ∧
      (c.Evaluates q g → c.execute (q.narrowedBy g) = .error e)) ∨
    ∃ d found, c.get? q.datasetId = some d ∧ q.filter.select d = .ok found ∧
      q.options.AcceptedIn d ∧ e = .tooManyRows found.size mostRows := by
  cases hd : c.get? q.datasetId with
  | none =>
    obtain rfl : .notFound q.datasetId = e :=
      Except.error.inj ((execute_of_absent hd).symm.trans h)
    refine .inl ⟨⟨rfl, rfl⟩, ?_⟩
    intro g
    have hnarrow : c.execute (q.narrowedBy g) = .error (.notFound q.datasetId) :=
      execute_of_absent hd
    exact ⟨⟨_, hnarrow⟩, fun _ => hnarrow⟩
  | some d =>
    have hnarrow : ∀ g, c.execute (q.narrowedBy g) = (q.narrowedBy g).run d :=
      fun _ => execute_of_loaded hd
    rw [execute_of_loaded hd] at h
    rcases Query.run_error_cases h with ⟨hplain, hfails⟩ | ⟨found, hfound, haccepted, he⟩
    · refine .inl ⟨hplain, ?_⟩
      intro g
      rw [hnarrow]
      exact ⟨(hfails g).1, fun hg => (hfails g).2 (hg d hd)⟩
    · exact .inr ⟨d, found, rfl, hfound, haccepted, he⟩

/-- **Only too many rows can be cured by asking for less.** The error of a query is retryable
iff some narrower query is answered. If it is not, every narrower query fails, and with the
same error if the further filter can be evaluated. If it is too many rows, a further filter
that can be evaluated leaves no more of them. -/
theorem retryable_iff_narrowable (h : c.execute q = .error e) :
    (e.retryable = true ↔ ∃ g rows, c.execute (q.narrowedBy g) = .ok rows) ∧
    (e.retryable = false → ∀ g, (∃ e', c.execute (q.narrowedBy g) = .error e') ∧
      (c.Evaluates q g → c.execute (q.narrowedBy g) = .error e)) ∧
    ∀ count limit, e = .tooManyRows count limit → ∀ g, c.Evaluates q g →
      (∃ rows, c.execute (q.narrowedBy g) = .ok rows ∧ rows.length ≤ mostRows) ∨
      ∃ count', mostRows < count' ∧ count' ≤ count ∧
        c.execute (q.narrowedBy g) = .error (.tooManyRows count' mostRows) := by
  rcases execute_error_cases h with ⟨hplain, hfails⟩ | ⟨d, found, hd, hfound, haccepted, rfl⟩
  · have hfinal := hplain.final
    refine ⟨?_, fun _ => hfails, ?_⟩
    · rw [hfinal]
      refine iff_of_false Bool.false_ne_true ?_
      intro hanswered
      obtain ⟨g, rows, hrows⟩ := hanswered
      obtain ⟨⟨e', he'⟩, -⟩ := hfails g
      cases hrows.symm.trans he'
    · intro count limit he
      rw [he] at hfinal
      cases hfinal
  · have hnarrow : ∀ g, c.execute (q.narrowedBy g) = (q.narrowedBy g).run d :=
      fun _ => execute_of_loaded hd
    refine ⟨iff_of_true rfl ?_, ?_, ?_⟩
    · obtain ⟨none, hnone, hsize⟩ := Filter.exists_select_none ⟨found, hfound⟩
      obtain ⟨rows, hrows⟩ := haccepted.answered _ _ hnone (hsize ▸ Nat.zero_le _)
      exact ⟨_, rows, (hnarrow _).trans hrows⟩
    · intro hfinal
      cases hfinal
    · intro count limit he g hg
      obtain ⟨rfl, -⟩ := Error.tooManyRows.inj he
      obtain ⟨t, ht⟩ := hg d hd
      have hboth := Filter.select_both hfound ht
      rw [hnarrow]
      by_cases hsize : (found.inter t).size ≤ mostRows
      · obtain ⟨rows, hrows⟩ := haccepted.answered _ _ hboth hsize
        exact .inl ⟨rows, hrows, Query.length_le_of_run hrows⟩
      · have hmany := Nat.lt_of_not_le hsize
        exact .inr ⟨_, hmany, found.size_inter_le t, haccepted.tooMany _ _ hboth hmany⟩

end Catalog

end Searching

/-- A room with forty seats. -/
def sampleRoom : Record := .ofList [("seats", .number (.ofInt 40))]

/-- With one room too many for an answer, asking for all of them fails and can be retried. An
unknown column fails whatever is asked for. -/
theorem crowdedRooms_narrowed :
    let c := (Catalog.empty.add "rooms" .rooms (List.replicate (mostRows + 1) sampleRoom)).2
    let all : Query := ⟨.everything, ⟨["rooms_seats"], none, []⟩⟩
    let unknown : Query := ⟨.everything, ⟨["rooms_seats", "rooms_area"], none, []⟩⟩
    c.execute all = .error (.tooManyRows (mostRows + 1) mostRows) ∧
      (∃ g rows, c.execute (all.narrowedBy g) = .ok rows) ∧
      c.execute unknown = .error (.unknownField "rooms_area" "rooms") ∧
      c.execute (unknown.narrowedBy .everything) =
        .error (.unknownField "rooms_area" "rooms") := by
  intro c all unknown
  have hget : c.get? "rooms" =
      some ⟨"rooms", .rooms, sampleRoom :: List.replicate mostRows sampleRoom⟩ := by
    rw [← List.replicate_succ]
    rfl
  have hsize : (List.replicate mostRows sampleRoom).length = mostRows := List.length_replicate
  have hid : beforeUnderscore "rooms_seats" = "rooms" := by decide +kernel
  -- Of the rooms behind the first one only the number matters.
  revert hget hsize
  generalize List.replicate mostRows sampleRoom = others
  clear_value c
  intro hget hsize
  let d : Dataset := ⟨"rooms", .rooms, sampleRoom :: others⟩
  have hrun : ∀ q : Query, q.datasetId = beforeUnderscore "rooms_seats" →
      c.execute q = q.run d := by
    intro q hq
    exact Catalog.execute_of_loaded (by rw [hq, hid, hget])
  have hmany : c.execute all = .error (.tooManyRows (mostRows + 1) mostRows) := by
    have hcolumns : d.columns ["rooms_seats"] = .ok [⟨"rooms_seats", "seats"⟩] := rfl
    have hcount : d.size = mostRows + 1 := congrArg Nat.succ hsize
    have hall := Query.run_everything_of_lt hcolumns (hcount.symm ▸ Nat.lt_succ_self mostRows)
    rw [hcount] at hall
    exact (hrun all rfl).trans hall
  have hunknown : c.execute unknown = .error (.unknownField "rooms_area" "rooms") := by
    have hcolumns : d.columns ["rooms_seats", "rooms_area"] =
        .error (.unknownField "rooms_area" "rooms") := rfl
    rw [hrun unknown rfl]
    exact Query.run_eq_error_iff.mpr (.inr ⟨_, Filter.select_everything d, .inl hcolumns⟩)
  obtain ⟨hretry, -, -⟩ := Catalog.retryable_iff_narrowable hmany
  obtain ⟨-, hfinal, -⟩ := Catalog.retryable_iff_narrowable hunknown
  refine ⟨hmany, hretry.mp rfl, hunknown, (hfinal rfl .everything).2 ?_⟩
  intro d _
  exact ⟨_, Filter.select_everything d⟩

end Tabular
