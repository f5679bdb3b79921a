import Tabular.Proofs.CodePoints
import Tabular.Proofs.Projection
import Tabular.Proofs.Selection
import Tabular.Proofs.StableSort

/-!
# What a query answers

The program selects positions, turns their records into rows and sorts the rows by
a column. `Query.Describes` says what the answer is without positions and without
rows that are not yet sorted: the wanted records, arranged by what they hold in the
field of the order, each shown by the columns. `run_describes` is that a query that
is answered gets this answer. Sorting rows is sorting records because the order is
among the columns, so that a row holds there what its record holds in the field.
-/

namespace Tabular

/-! ## The order of stored values -/

namespace Value

/-- Missing values stand first, then numbers, then texts. -/
def rank : Option Value → Nat
  | none => 0
  | some (number _) => 1
  | some (text _) => 2

/-- Missing values first, then the numbers in their total order, then the texts by
their code points. -/
def storedOrder (a b : Option Value) : Ordering :=
  (Ord.compare (rank a) (rank b)).then <|
    match a, b with
    | some (number x), some (number y) => x.totalOrder y
    | some (text s), some (text t) => Ord.compare (Text.codePoints s) (Text.codePoints t)
    | _, _ => .eq

theorem storedOrder_eq_compare : storedOrder = Value.compare := by
  funext a b
  rcases a with _ | ⟨x⟩ | ⟨s⟩ <;> rcases b with _ | ⟨y⟩ | ⟨t⟩
  case some.text.some.text => exact Text.compare_codePoints s t
  all_goals rfl

end Value

/-! ## The selected records -/

/-- The records of a dataset that a filter wants, in their order. -/
def Filter.wanted (f : Filter) (d : Dataset) : List Record :=
  d.records.filter fun r => decide (f.Wants d r)

theorem length_placesFrom (p : Record → Bool) (start : Nat) (rs : List Record) :
    (Positions.placesFrom start (rs.map p)).length = (rs.filter p).length := by
  induction rs generalizing start with
  | nil => rfl
  | cons r rs ih =>
    rw [List.map_cons, Positions.placesFrom]
    cases hp : p r with
    | false => simpa [hp] using ih (start + 1)
    | true => simpa [hp] using ih (start + 1)

/-- Going through the places of the records that a test passes is going through
those records. -/
theorem filterMap_placesFrom (p : Record → Bool) (g : Record → Row) (front rs : List Record) :
    (Positions.placesFrom front.length (rs.map p)).filterMap
      (fun i => ((front ++ rs)[i]?).map g) = (rs.filter p).map g := by
  -- The records that were passed are kept in front, so positions stay places in the whole.
  induction rs generalizing front with
  | nil => rfl
  | cons r rs ih =>
    have hrest := ih (front ++ [r])
    rw [List.length_append, List.length_singleton, List.append_assoc,
      List.singleton_append] at hrest
    rw [List.map_cons, Positions.placesFrom]
    cases hp : p r with
    | false => simpa [hp] using hrest
    | true => simpa [hp] using hrest

section Searching

variable [Searcher] [LawfulSearcher]

theorem Filter.select_eq_ofFlags {f : Filter} {d : Dataset} {found : Positions}
    (h : f.select d = .ok found) :
    found = .ofFlags (d.records.map fun r => decide (f.Wants d r)) := by
  refine Positions.ext_mem ?_
  intro i
  rw [Positions.mem_ofFlags, List.getElem?_map]
  cases hr : d.records[i]? with
  | none =>
    have hi : ¬ i < d.size := fun hi => by
      rw [List.getElem?_eq_getElem hi] at hr
      cases hr
    simpa using fun hmem => hi (Filter.lt_size_of_mem_select h hmem)
  | some r =>
    rw [Filter.mem_select h hr]
    simp

/-- As many positions are selected as records are wanted. -/
theorem Filter.size_select {f : Filter} {d : Dataset} {found : Positions}
    (h : f.select d = .ok found) : found.size = (f.wanted d).length := by
  rw [Filter.select_eq_ofFlags h]
  exact length_placesFrom _ 0 d.records

/-- The rows at the selected positions are those of the wanted records. -/
theorem Filter.rows_select {f : Filter} {d : Dataset} {found : Positions}
    (h : f.select d = .ok found) (columns : List Column) :
    d.rows columns found = (f.wanted d).map (Record.row columns) := by
  rw [Filter.select_eq_ofFlags h, Dataset.rows]
  simp only [List.getElem?_toArray]
  exact filterMap_placesFrom _ _ [] d.records

end Searching

/-! ## The steps of an answer -/

theorem Options.check_eq_ok_iff {o : Options} : o.check = .ok () ↔
    o.extraKeys = [] ∧ ∀ order, o.order = some order → order ∈ o.columns := by
  obtain ⟨columns, order, extraKeys⟩ := o
  unfold Options.check
  cases extraKeys with
  | cons key keys => simp
  | nil =>
    cases order with
    | none => simp
    | some order => simp

theorem Options.check_eq_error_iff {o : Options} {fault : QueryFault} :
    o.check = .error fault ↔
      (∃ key, o.extraKeys.head? = some key ∧ fault = .shape (.extraKey key)) ∨
      (o.extraKeys = [] ∧ ∃ order, o.order = some order ∧ order ∉ o.columns ∧
        fault = .shape (.orderNotShown order)) := by
  obtain ⟨columns, order, extraKeys⟩ := o
  unfold Options.check
  cases extraKeys with
  | cons key keys => simp [eq_comm]
  | nil =>
    cases order with
    | none => simp
    | some order => by_cases hmem : order ∈ columns <;> simp [hmem, eq_comm]

namespace Query

/-- A query is answered iff every step succeeds and the rows are not too many. -/
theorem run_eq_ok_iff [Searcher] {q : Query} {d : Dataset} {rows : List Row} :
    q.run d = .ok rows ↔ ∃ found columns, q.filter.select d = .ok found ∧
      d.columns q.options.columns = .ok columns ∧ q.options.check = .ok () ∧
      found.size ≤ mostRows ∧
      rows = match q.options.order with
        | none => d.rows columns found
        | some order => Row.sortBy order (d.rows columns found) := by
  rw [run, bind_eq_ok_iff]
  constructor
  · rintro ⟨found, hfound, h⟩
    obtain ⟨columns, hcolumns, h⟩ := bind_eq_ok_iff.mp h
    obtain ⟨_, hcheck, h⟩ := bind_eq_ok_iff.mp h
    refine ⟨found, columns, hfound, hcolumns, mapError_eq_ok_iff.mp hcheck, ?_⟩
    split at h
    · cases h
    · refine ⟨by omega, ?_⟩
      cases horder : q.options.order with
      | none =>
        simp only [horder] at h
        exact (Except.ok.inj h).symm
      | some order =>
        simp only [horder] at h
        exact (Except.ok.inj h).symm
  · rintro ⟨found, columns, hfound, hcolumns, hcheck, hsize, rfl⟩
    refine ⟨found, hfound, bind_eq_ok_iff.mpr ⟨columns, hcolumns, ?_⟩⟩
    refine bind_eq_ok_iff.mpr ⟨(), mapError_eq_ok_iff.mpr hcheck, ?_⟩
    rw [if_neg (by omega)]
    cases q.options.order with
    | none => rfl
    | some order => rfl

/-- A query fails with the first of its steps that does: the filter, the columns, the
options, the number of rows. -/
theorem run_eq_error_iff [Searcher] {q : Query} {d : Dataset} {e : Error} :
    q.run d = .error e ↔ q.filter.select d = .error e ∨
      ∃ found, q.filter.select d = .ok found ∧ (d.columns q.options.columns = .error e ∨
        ∃ columns, d.columns q.options.columns = .ok columns ∧
          ((∃ fault, q.options.check = .error fault ∧ Error.ofQueryFault fault = e) ∨
            q.options.check = .ok () ∧ mostRows < found.size ∧
              e = .tooManyRows found.size mostRows)) := by
  -- Behind the other steps only the number of rows is asked for; sorting does not fail.
  have hlast : ∀ (found : Positions) (columns : List Column),
      ((if mostRows < found.size then .error (.tooManyRows found.size mostRows) else
        match q.options.order with
        | none => .ok (d.rows columns found)
        | some order => .ok (Row.sortBy order (d.rows columns found)) : Except Error (List Row)) =
          .error e) ↔ mostRows < found.size ∧ e = .tooManyRows found.size mostRows := by
    intro found columns
    by_cases hsize : mostRows < found.size
    · simp [hsize, eq_comm]
    · cases q.options.order <;> simp [hsize]
  simp only [run, bind_eq_error_iff, mapError_eq_error_iff, mapError_eq_ok_iff]
  refine or_congr_right (exists_congr fun found => and_congr_right fun _ => ?_)
  refine or_congr_right (exists_congr fun columns => and_congr_right fun _ => ?_)
  exact or_congr_right (Unique.exists_iff.trans (and_congr_right fun _ => hlast found columns))

end Query

/-! ## The answer -/

/-- The records that options show, in turn: as they stand, or sorted by what they
hold in the field of the order. -/
def Options.Arranges (o : Options) (wanted arranged : List Record) : Prop :=
  match o.order with
  | none => arranged = wanted
  | some order => SortedStably Value.storedOrder (fun r : Record => r.get? (localName order))
      wanted arranged

/-- What a query asks of a dataset: the wanted records, arranged as the options say,
and of each what the columns show. -/
def Query.Describes (q : Query) (d : Dataset) (answer : List Row) : Prop :=
  ∃ arranged, q.options.Arranges (q.filter.wanted d) arranged ∧
    answer = arranged.map (Record.shown q.options.columns)

/-- Rows that show a column are sorted by it as their records are by its field. -/
theorem sortBy_map_shown {names : List String} {order : String} (horder : order ∈ names)
    {wanted arranged : List Record}
    (h : SortedStably Value.storedOrder (fun r : Record => r.get? (localName order))
      wanted arranged) :
    arranged.map (Record.shown names) = Row.sortBy order (wanted.map (Record.shown names)) := by
  -- The order is shown, so a row answers for it what its record holds in the field.
  have hkey : (fun r : Record => r.get? (localName order)) =
      fun r => lookup order (Record.shown names r) := by
    funext r
    rw [Record.lookup_shown, if_pos horder]
  rw [hkey, Value.storedOrder_eq_compare] at h
  exact h.map.unique (sortedStably_mergeSort _)

/-- The options arrange any records, so that a query always describes an answer. -/
theorem Options.exists_arranges (o : Options) (wanted : List Record) :
    ∃ arranged, o.Arranges wanted arranged := by
  unfold Options.Arranges
  cases o.order with
  | none => exact ⟨wanted, rfl⟩
  | some order =>
    rw [Value.storedOrder_eq_compare]
    exact ⟨_, sortedStably_mergeSort wanted⟩

/-- **Rows sorted are records sorted.** The answer of a query is the one that it
describes, and it describes no other. -/
theorem Query.run_describes [Searcher] [LawfulSearcher] {q : Query} {d : Dataset}
    {rows : List Row} (h : q.run d = .ok rows) (answer : List Row) :
    q.Describes d answer ↔ answer = rows := by
  obtain ⟨found, columns, hfound, hcolumns, hcheck, -, hrows⟩ := run_eq_ok_iff.mp h
  obtain ⟨-, rfl⟩ := Dataset.columns_eq_ok_iff.mp hcolumns
  -- The rows before sorting, without positions.
  have hshown : d.rows (q.options.columns.map fun name => ⟨name, localName name⟩) found =
      (q.filter.wanted d).map (Record.shown q.options.columns) := by
    rw [Filter.rows_select hfound]
    refine List.map_congr_left ?_
    intro r _
    exact Record.row_eq_shown q.options.columns r
  rw [hshown] at hrows
  have hanswer : ∀ arranged, q.options.Arranges (q.filter.wanted d) arranged →
      arranged.map (Record.shown q.options.columns) = rows := by
    intro arranged harranged
    rw [hrows]
    unfold Options.Arranges at harranged
    cases horder : q.options.order with
    | none =>
      rw [horder] at harranged
      rw [harranged]
    | some order =>
      rw [horder] at harranged
      have hmem := (Options.check_eq_ok_iff.mp hcheck).2 order horder
      exact sortBy_map_shown hmem harranged
  constructor
  · rintro ⟨arranged, harranged, rfl⟩
    exact hanswer arranged harranged
  · rintro rfl
    obtain ⟨arranged, harranged⟩ := q.options.exists_arranges (q.filter.wanted d)
    exact ⟨arranged, harranged, (hanswer arranged harranged).symm⟩

/-- Rooms by name, a column asked for twice. -/
def sampleQuery : Query :=
  ⟨sampleFilter, ⟨["rooms_seats", "rooms_name", "rooms_seats"], some "rooms_name", []⟩⟩

/-- The room without a name is shown first, and the one without seats without them. -/
theorem sampleQuery_answer :
    ∃ rows, sampleQuery.run sampleRooms = .ok rows ∧
      rows = [[("rooms_seats", .number (.ofInt 160))], [("rooms_name", .text "DMP310")]] ∧
      ∀ answer, sampleQuery.Describes sampleRooms answer ↔ answer = rows := by
  let columns : List Column :=
    sampleQuery.options.columns.map fun name => ⟨name, localName name⟩
  have hrows : sampleRooms.rows columns ⟨[1, 2], by simp⟩ =
      [[("rooms_name", .text "DMP310")], [("rooms_seats", .number (.ofInt 160))]] := by
    decide +kernel
  have hsorted : Row.sortBy "rooms_name" (sampleRooms.rows columns ⟨[1, 2], by simp⟩) =
      [[("rooms_seats", .number (.ofInt 160))], [("rooms_name", .text "DMP310")]] := by
    rw [hrows]
    simp [Row.sortBy, List.mergeSort, List.MergeSort.Internal.splitInTwo, Row.notAfter, lookup,
      Value.compare]
  have hrun : sampleQuery.run sampleRooms =
      .ok (Row.sortBy "rooms_name" (sampleRooms.rows columns ⟨[1, 2], by simp⟩)) :=
    Query.run_eq_ok_iff.mpr ⟨⟨[1, 2], by simp⟩, columns, by decide +kernel, by decide +kernel,
      by decide +kernel, by decide, rfl⟩
  exact ⟨_, hrun, hsorted, Query.run_describes hrun⟩

end Tabular
