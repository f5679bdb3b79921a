import Mathlib.Data.List.Basic
import Mathlib.Data.List.Induction
import Tabular.Proofs.EntryLists
import Tabular.Proofs.Fallible
import Tabular.Query.Answer

/-!
# Showing the columns of a record

A row is built by binding one column after the other. What comes out can be said
at once: the distinct names in the order of their first places, each with what the
record holds in the field behind it, where it holds something (`Record.shown`). In
a dataset where the names resolve, that field is what stands behind the underscore.
-/

namespace Tabular

/-! ## Qualified names -/

/-- The part of a qualified name behind its first underscore. -/
def localName (name : String) : String :=
  String.ofList (name.toList.dropWhile (· ≠ '_')).tail

/-- The two parts of a qualified name stand around its first underscore. -/
theorem parts_of_splitQualified {name dataset field : String}
    (h : splitQualified name = some (dataset, field)) :
    beforeUnderscore name = dataset ∧ localName name = field := by
  -- Both read the name up to the first underscore, so all depends on what is left there.
  unfold splitQualified at h
  unfold beforeUnderscore localName
  cases hrest : name.toList.dropWhile (· ≠ '_') with
  | nil =>
    simp only [hrest] at h
    cases h
  | cons c rest =>
    simp only [hrest] at h
    split at h
    · cases h
    · obtain ⟨rfl, rfl⟩ := Prod.mk.inj (Option.some.inj h)
      exact ⟨rfl, rfl⟩

namespace Dataset

theorem resolve_eq_ok_iff {d : Dataset} {name field : String} :
    d.resolve name = .ok field ↔
      splitQualified name = some (d.id, field) ∧ d.hasField field = true := by
  unfold resolve
  cases hsplit : splitQualified name with
  | none => simp
  | some parts =>
    obtain ⟨dataset, field'⟩ := parts
    show (if dataset ≠ d.id then _ else if d.hasField field' then _ else _) = _ ↔ _
    by_cases hid : dataset = d.id
    · by_cases hfield : d.hasField field' = true
      · simp [hid, hfield]
        rintro rfl
        exact hfield
      · simp [hid, hfield]
        rintro rfl
        simpa using hfield
    · simp [hid]

/-- A name that does not resolve is foreign to the dataset, unless it is qualified by the
dataset's id; then it is unknown there. -/
theorem resolve_eq_error_iff {d : Dataset} {name : String} {e : Error} :
    d.resolve name = .error e ↔
      ((∀ field, splitQualified name ≠ some (d.id, field)) ∧ e = .foreignField name d.id) ∨
      ∃ field, splitQualified name = some (d.id, field) ∧ d.hasField field = false ∧
        e = .unknownField name d.id := by
  unfold resolve
  cases hsplit : splitQualified name with
  | none =>
    show Except.error (.foreignField name d.id) = .error e ↔ _
    rw [Except.error.injEq, eq_comm]
    simp
  | some parts =>
    obtain ⟨dataset, field⟩ := parts
    show (if dataset ≠ d.id then Except.error (Error.foreignField name d.id)
      else if d.hasField field then .ok field else .error (Error.unknownField name dataset)) = _ ↔ _
    by_cases hid : dataset = d.id
    · rw [if_neg (not_not_intro hid), hid]
      cases hfield : d.hasField field with
      | true => simp [hfield]
      | false =>
        rw [if_neg Bool.false_ne_true, Except.error.injEq, eq_comm]
        simp [hfield]
    · rw [if_pos hid, Except.error.injEq, eq_comm]
      simp [hid]

theorem resolve_error_cases {d : Dataset} {name : String} {e : Error}
    (h : d.resolve name = .error e) :
    e = .foreignField name d.id ∨ e = .unknownField name d.id := by
  rcases resolve_eq_error_iff.mp h with ⟨-, he⟩ | ⟨_, -, -, he⟩
  · exact .inl he
  · exact .inr he

theorem localName_of_resolve {d : Dataset} {name field : String}
    (h : d.resolve name = .ok field) : localName name = field :=
  (parts_of_splitQualified (resolve_eq_ok_iff.mp h).1).2

theorem columns_eq_mapM (d : Dataset) (names : List String) :
    d.columns names =
      names.mapM fun name => d.resolve name >>= fun field => .ok ⟨name, field⟩ := by
  induction names with
  | nil => rfl
  | cons name names ih =>
    rw [mapM_cons_except, ← ih, columns]
    cases d.resolve name with
    | error e => rfl
    | ok field => rfl

/-- The columns are found iff every name resolves, and each then stands for the
field that its second part names. -/
theorem columns_eq_ok_iff {d : Dataset} {names : List String} {columns : List Column} :
    d.columns names = .ok columns ↔ (∀ name ∈ names, ∃ field, d.resolve name = .ok field) ∧
      columns = names.map fun name => ⟨name, localName name⟩ := by
  rw [columns_eq_mapM, mapM_eq_ok_iff]
  induction names generalizing columns with
  | nil => simp
  | cons name names ih =>
    rw [List.forall₂_cons_left_iff, List.forall_mem_cons, List.map_cons]
    constructor
    · rintro ⟨column, columns', hcolumn, hcolumns, rfl⟩
      obtain ⟨field, hfield, heq⟩ := bind_eq_ok_iff.mp hcolumn
      cases heq
      obtain ⟨hnames, rfl⟩ := ih.mp hcolumns
      exact ⟨⟨⟨field, hfield⟩, hnames⟩, by rw [localName_of_resolve hfield]⟩
    · rintro ⟨⟨⟨field, hfield⟩, hnames⟩, rfl⟩
      refine ⟨_, _, bind_eq_ok_iff.mpr ⟨field, hfield, ?_⟩, ih.mpr ⟨hnames, rfl⟩, rfl⟩
      rw [localName_of_resolve hfield]

/-- The first name that does not resolve decides the error. -/
theorem columns_eq_error_iff {d : Dataset} {names : List String} {e : Error} :
    d.columns names = .error e ↔ ∃ front name back, names = front ++ name :: back ∧
      (∀ n ∈ front, ∃ field, d.resolve n = .ok field) ∧ d.resolve name = .error e := by
  have hok : ∀ n, (∃ column : Column, (d.resolve n >>= fun field => .ok ⟨n, field⟩) =
      .ok column) ↔ ∃ field, d.resolve n = .ok field := by
    intro n
    cases d.resolve n with
    | error e => simp [bind, Except.bind]
    | ok field => simp [bind, Except.bind]
  have herror : ∀ n, (d.resolve n >>= fun field => Except.ok (Column.mk n field)) = .error e ↔
      d.resolve n = .error e := by
    intro n
    cases d.resolve n with
    | error e => simp [bind, Except.bind]
    | ok field => simp [bind, Except.bind]
  rw [columns_eq_mapM, mapM_eq_error_iff]
  simp only [hok, herror]

end Dataset

/-! ## Rows -/

namespace Row

/-- Binding a column again to what it holds changes nothing. -/
theorem set_of_lookup_eq_some {column : String} {value : Value} {row : Row}
    (h : lookup column row = some value) : row.set column value = row := by
  induction row with
  | nil => simp [lookup] at h
  | cons cell row ih =>
    by_cases hcell : cell.1 = column
    · rw [lookup, if_pos hcell] at h
      cases h
      simp [set, ← hcell]
    · rw [lookup, if_neg hcell] at h
      simp [set, hcell, ih h]

theorem set_of_lookup_eq_none {column : String} {value : Value} {row : Row}
    (h : lookup column row = none) : row.set column value = row ++ [(column, value)] := by
  induction row with
  | nil => rfl
  | cons cell row ih =>
    by_cases hcell : cell.1 = column
    · simp [lookup, hcell] at h
    · rw [lookup, if_neg hcell] at h
      simp [set, hcell, ih h]

end Row

namespace Record

/-- What some columns show of a record: each distinct name, at its first place,
with what the record holds in its field; nothing where it holds nothing. -/
def shown (names : List String) (r : Record) : Row :=
  names.eraseDups.filterMap fun name => (r.get? (localName name)).map fun value => (name, value)

/-- A row answers for the columns that it shows as the record does for their fields. -/
theorem lookup_shown (names : List String) (r : Record) (name : String) :
    lookup name (shown names r) = if name ∈ names then r.get? (localName name) else none := by
  rw [shown, lookup_filterMap]
  simp only [List.mem_eraseDups]

/-- A row is what its columns show of the record. -/
theorem row_eq_shown (names : List String) (r : Record) :
    row (names.map fun name => ⟨name, localName name⟩) r = shown names r := by
  -- From the last column on: it is bound already, and to the same value, or is new.
  induction names using List.reverseRecOn with
  | nil => rfl
  | append_singleton names name ih =>
    have hstep : row ((names ++ [name]).map fun name => ⟨name, localName name⟩) r =
        (r.get? (localName name)).elim (shown names r)
          fun value => Row.set name value (shown names r) := by
      rw [← ih, row, List.map_append, List.foldl_append]
      show (List.foldl _ _ [_]) = _
      rw [List.foldl_cons, List.foldl_nil]
      cases r.get? (localName name) <;> rfl
    have hshown : shown (names ++ [name]) r = shown names r ++
        if name ∈ names then [] else
          [name].filterMap fun n => (r.get? (localName n)).map fun value => (n, value) := by
      rw [shown, List.eraseDups_append, List.filterMap_append]
      by_cases hname : name ∈ names
      · simp [shown, List.removeAll, hname]
      · simp [shown, List.removeAll, hname, List.eraseDups_cons]
    have hlookup := lookup_shown names r name
    rw [hstep, hshown]
    cases hv : r.get? (localName name) with
    | none => simp [hv]
    | some value =>
      rw [hv] at hlookup
      by_cases hname : name ∈ names
      · rw [if_pos hname] at hlookup ⊢
        simpa using Row.set_of_lookup_eq_some hlookup
      · rw [if_neg hname] at hlookup ⊢
        simpa [hv] using Row.set_of_lookup_eq_none hlookup

end Record

end Tabular
