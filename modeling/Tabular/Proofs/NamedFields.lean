import Tabular.Proofs.Answer
import Tabular.Proofs.Faults

/-!
# Fields that a query does not name

A query names fields of a dataset in its columns and in its comparisons. Of the records it
is told nothing but what they hold in these fields, so datasets that agree there are
answered alike, and fail alike (`Query.run_eq_of_agreeOn`).

Each function of the evaluation has one lemma for this, from resolving a name up to the
rows. The first record, which decides what the fields are, is no exception: a name is
resolved by what that record holds in the one field that the name means.
-/

namespace Tabular

/-- What the records of a dataset hold in a field, in turn. -/
def Dataset.stored (d : Dataset) (field : String) : List (Option Value) :=
  d.records.map fun r => r.get? field

/-- The qualified names in a query: those of its columns and of its comparisons. -/
def Query.names (q : Query) : List String :=
  q.options.columns ++ q.filter.comparisons.map Comparison.field

/-- Two datasets of one id have the same number of records, and these hold the same, position
by position, in the fields whose qualified names are listed. What they describe, and what
they hold in other fields, may differ. -/
structure Dataset.AgreeOn (names : List String) (d d' : Dataset) : Prop where
  id : d.id = d'.id
  size : d.size = d'.size
  stored : ∀ field, qualify d.id field ∈ names → d.stored field = d'.stored field

/-! ## Names -/

/-- The two parts of a qualified name and the underscore between them are the whole name. -/
theorem eq_qualify_of_splitQualified {name dataset field : String}
    (h : splitQualified name = some (dataset, field)) : name = qualify dataset field := by
  have hname : name.toList.takeWhile (· ≠ '_') ++ name.toList.dropWhile (· ≠ '_') =
      name.toList := List.takeWhile_append_dropWhile
  have hhead := List.head?_dropWhile_not (· ≠ '_') name.toList
  unfold splitQualified at h
  generalize name.toList.takeWhile (· ≠ '_') = front at h hname
  cases hrest : name.toList.dropWhile (· ≠ '_') with
  | nil =>
    rw [hrest] at h
    cases h
  | cons c rest =>
    rw [hrest] at h hname hhead
    obtain rfl : c = '_' := by simpa using hhead
    simp only at h
    split at h
    · cases h
    · obtain ⟨rfl, rfl⟩ := Prod.mk.inj (Option.some.inj h)
      rw [← String.toList_inj, ← hname]
      simp [qualify]

namespace Dataset

variable {names : List String} {d d' : Dataset}

/-- A field is what the first record holds something in. -/
theorem hasField_eq_stored (d : Dataset) (field : String) :
    d.hasField field = (d.stored field).head?.join.isSome := by
  unfold hasField stored
  cases d.records <;> rfl

theorem qualify_of_resolve {name field : String} (h : d.resolve name = .ok field) :
    name = qualify d.id field :=
  eq_qualify_of_splitQualified (resolve_eq_ok_iff.mp h).1

namespace AgreeOn

theorem resolve_eq (h : AgreeOn names d d') {name : String} (hname : name ∈ names) :
    d.resolve name = d'.resolve name := by
  unfold resolve
  rw [← h.id]
  cases hsplit : splitQualified name with
  | none => rfl
  | some parts =>
    obtain ⟨dataset, field⟩ := parts
    show (if dataset ≠ d.id then _ else if d.hasField field then _ else _) =
      (if dataset ≠ d.id then _ else if d'.hasField field then _ else _)
    by_cases hid : dataset = d.id
    · have hfield : qualify d.id field ∈ names := by
        rw [← hid, ← eq_qualify_of_splitQualified hsplit]
        exact hname
      rw [hasField_eq_stored, hasField_eq_stored, h.stored field hfield]
    · rw [if_pos hid, if_pos hid]

/-- What a name resolves to, the datasets hold the same in. -/
theorem stored_of_resolve (h : AgreeOn names d d') {name field : String} (hname : name ∈ names)
    (hresolve : d.resolve name = .ok field) : d.stored field = d'.stored field :=
  h.stored field (qualify_of_resolve hresolve ▸ hname)

theorem columns_eq (h : AgreeOn names d d') {asked : List String}
    (hasked : ∀ name ∈ asked, name ∈ names) : d.columns asked = d'.columns asked := by
  induction asked with
  | nil => rfl
  | cons name asked ih =>
    obtain ⟨hname, hasked⟩ := List.forall_mem_cons.mp hasked
    rw [columns, columns, h.resolve_eq hname, ih hasked]

theorem stored_of_columns (h : AgreeOn names d d') {asked : List String}
    (hasked : ∀ name ∈ asked, name ∈ names) {columns : List Column}
    (hcolumns : d.columns asked = .ok columns) :
    ∀ column ∈ columns, d.stored column.field = d'.stored column.field := by
  obtain ⟨hresolve, rfl⟩ := columns_eq_ok_iff.mp hcolumns
  intro column hcolumn
  obtain ⟨name, hname, rfl⟩ := List.mem_map.mp hcolumn
  obtain ⟨field, hfield⟩ := hresolve name hname
  show d.stored (localName name) = d'.stored (localName name)
  rw [localName_of_resolve hfield]
  exact h.stored_of_resolve (hasked name hname) hfield

end AgreeOn

end Dataset

section Searching

variable [Searcher] {names : List String} {d d' : Dataset}

/-! ## Filters -/

namespace Comparison

theorem judgeAll_congr (c : Comparison) {field : String} (p : Predicate) {rs rs' : List Record}
    (h : rs.map (fun r => r.get? field) = rs'.map (fun r => r.get? field)) :
    c.judgeAll field p rs = c.judgeAll field p rs' := by
  induction rs generalizing rs' with
  | nil =>
    cases rs' with
    | nil => rfl
    | cons r' rs' => cases h
  | cons r rs ih =>
    cases rs' with
    | nil => cases h
    | cons r' rs' =>
      obtain ⟨hr, hrs⟩ := List.cons.inj h
      have hr : r.get? field = r'.get? field := hr
      rw [judgeAll, judgeAll, ih hrs, judge, judge, hr]

theorem select_eq_of_agreeOn (h : Dataset.AgreeOn names d d') {c : Comparison}
    (hc : c.field ∈ names) : c.select d = c.select d' := by
  have hprepare : c.prepare d = c.prepare d' := by
    rw [prepare, prepare, h.resolve_eq hc]
  rw [select, select, ← hprepare]
  cases hp : c.prepare d with
  | error e => rfl
  | ok checked =>
    obtain ⟨field, p⟩ := checked
    have hstored := h.stored_of_resolve hc (prepare_eq_ok_iff.mp hp).1
    show (do
        let flags ← c.judgeAll field p d.records
        .ok (Positions.ofFlags flags)) = do
        let flags ← c.judgeAll field p d'.records
        .ok (Positions.ofFlags flags)
    rw [c.judgeAll_congr p hstored]

end Comparison

namespace Filter

theorem select_eq_of_agreeOn (h : Dataset.AgreeOn names d d') {f : Filter}
    (hf : ∀ c ∈ f.comparisons, c.field ∈ names) : f.select d = f.select d' := by
  induction f with
  | everything => rw [select, select, h.size]
  | logical connective fs ih =>
    have hoperand : ∀ f ∈ fs, f.select d = f.select d' := by
      intro f hmem
      exact ih f hmem fun c hc => hf c (comparisons_subset_of_mem hmem hc)
    cases fs with
    | nil => rw [select, select]
    | cons f fs =>
      obtain ⟨hfirst, hrest⟩ := List.forall_mem_cons.mp hoperand
      rw [select_logical, select_logical, hfirst, mapM_congr_except hrest]
  | negation f ih => rw [select, select, ih hf, h.size]
  | comparison c =>
    rw [select, select]
    exact Comparison.select_eq_of_agreeOn h (hf c List.mem_cons_self)

end Filter

end Searching

/-! ## Rows -/

theorem Record.row_congr {columns : List Column} {r r' : Record}
    (h : ∀ column ∈ columns, r.get? column.field = r'.get? column.field) :
    r.row columns = r'.row columns := by
  refine List.foldl_ext _ _ _ ?_
  intro row column hcolumn
  rw [h column hcolumn]

theorem Dataset.rows_congr {d d' : Dataset} {columns : List Column} (hsize : d.size = d'.size)
    (h : ∀ column ∈ columns, d.stored column.field = d'.stored column.field)
    (found : Positions) : d.rows columns found = d'.rows columns found := by
  unfold rows
  simp only [List.getElem?_toArray]
  refine List.filterMap_congr ?_
  intro i _
  have hlength : d.records.length = d'.records.length := hsize
  cases hr : d.records[i]? with
  | none =>
    rw [List.getElem?_eq_none_iff, hlength] at hr
    rw [List.getElem?_eq_none hr]
  | some r =>
    obtain ⟨hi, -⟩ := List.getElem?_eq_some_iff.mp hr
    rw [hlength] at hi
    have hr' := List.getElem?_eq_getElem hi
    rw [hr']
    refine congrArg some (Record.row_congr ?_)
    intro column hcolumn
    have hstored := congrArg (·[i]?) (h column hcolumn)
    simpa [stored, hr, hr'] using hstored

namespace Query

/-- **A query is not told what it does not name.** Datasets that hold the same in the fields
that a query names give it the same answer or the same error. -/
theorem run_eq_of_agreeOn [Searcher] {q : Query} {d d' : Dataset}
    (h : Dataset.AgreeOn q.names d d') : q.run d = q.run d' := by
  have hasked : ∀ name ∈ q.options.columns, name ∈ q.names :=
    fun _ hname => List.mem_append_left _ hname
  have hselect : q.filter.select d = q.filter.select d' :=
    Filter.select_eq_of_agreeOn h fun _ hc => List.mem_append_right _ (List.mem_map_of_mem hc)
  unfold run
  rw [hselect, ← h.columns_eq hasked]
  cases q.filter.select d' with
  | error e => rfl
  | ok found =>
    cases hcolumns : d.columns q.options.columns with
    | error e => rfl
    | ok columns =>
      have hrows := Dataset.rows_congr h.size (h.stored_of_columns hasked hcolumns) found
      dsimp only [bind, Except.bind]
      rw [hrows]

end Query

/-- The sample rooms with other shapes, and taken for courses. Here the first room has a
shape, so that there is such a field. -/
def reshapedRooms : Dataset := ⟨"rooms", .courses,
  [.ofList [("name", .text "DMP110"), ("seats", .number (.ofInt 40)), ("shape", .text "flat")],
    .ofList [("name", .text "DMP310")],
    .ofList [("seats", .number (.ofInt 160))]]⟩

/-- A query for names and seats cannot tell the rooms apart. One for shapes can. -/
theorem reshapedRooms_answered :
    let named : Query := ⟨sampleFilter, ⟨["rooms_seats", "rooms_name"], none, []⟩⟩
    let shapes : Query := ⟨.everything, ⟨["rooms_shape"], none, []⟩⟩
    Dataset.AgreeOn named.names sampleRooms reshapedRooms ∧
      named.run reshapedRooms =
        .ok [[("rooms_name", .text "DMP310")], [("rooms_seats", .number (.ofInt 160))]] ∧
      shapes.run sampleRooms = .error (.unknownField "rooms_shape" "rooms") ∧
      shapes.run reshapedRooms = .ok [[("rooms_shape", .text "flat")], [], []] := by
  intro named shapes
  have hagree : Dataset.AgreeOn named.names sampleRooms reshapedRooms := by
    refine ⟨rfl, rfl, ?_⟩
    intro field hfield
    have hshape : "shape" ≠ field := by
      intro hshape
      subst hshape
      exact absurd hfield (by decide +kernel)
    simp [Dataset.stored, sampleRooms, reshapedRooms, Dictionary.ofList, hshape]
  have hrows : named.run sampleRooms =
      .ok [[("rooms_name", .text "DMP310")], [("rooms_seats", .number (.ofInt 160))]] := by
    decide +kernel
  refine ⟨hagree, (Query.run_eq_of_agreeOn hagree).symm.trans hrows, ?_, ?_⟩
  · decide +kernel
  · decide +kernel

end Tabular
